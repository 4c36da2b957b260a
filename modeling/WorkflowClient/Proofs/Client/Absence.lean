import WorkflowClient.Proofs.Client.Calls
import WorkflowClient.Proofs.Validation.Null
import WorkflowClient.Samples.Orders

/-! Absent payloads: the codec takes an empty text for one, the client does not. -/
namespace WorkflowClient
open Message

namespace Payload
variable {Γ : Catalog} {s : Descriptors} {T : TypeExpr} {target : Target} {raw : Option String}

/-- Null is no value of the target: its text is refused. -/
def RefusesNull (Γ : Catalog) (s : Descriptors) (target : Target) : Prop :=
  ∀ v, (decode Γ s (some "null") target).1.result ≠ .ok v

/-- Only a text that reads as null is decoded to null. -/
theorem decodeAs_null {text : String} (h : decodeAs Γ T text = .ok .none) :
    decodeAs Γ T "null" = .ok .none := by
  have hnull : decodeAs Γ T "null" = Validation.examine Γ .data .none T := rfl
  unfold decodeAs at h
  split at h
  · cases h
  · rename_i j hread
    have hj : Value.ofJson j = .none := Validation.null_of_examine h
    rw [hj] at h
    rw [hnull, h]

/-- Where null is refused, null is decoded from nothing but an absent payload. -/
theorem decode_eq_none_iff (hnull : RefusesNull Γ s target) :
    (decode Γ s raw target).1.result = .ok .none ↔ present? raw = none := by
  unfold decode
  cases hraw : present? raw with
  | none => exact iff_of_true rfl rfl
  | some text =>
    refine iff_of_false (fun h => ?_) (by simp)
    dsimp only at h
    cases hof : s.of? Γ target with
    | none =>
      rw [hof] at h
      cases h
    | some r =>
      rw [hof] at h
      have hd : decodeAs Γ r.1.type text = .ok .none := by
        simp only [decodeText] at h
        split at h
        · rename_i v hv
          cases h
          exact hv
        · cases h
        · cases h
      refine hnull .none ?_
      have hpresent : present? (some "null") = some "null" := rfl
      simp only [decode, hpresent, hof, decodeText, decodeAs_null hd]

theorem decode_descriptor (d : Descriptor) :
    (decode Γ s raw (.descriptor d)).1 = decodeWith Γ d raw := by
  unfold decode decodeWith
  cases present? raw <;> rfl

theorem decode_text_eq_none_iff (hnull : RefusesNull Γ s target) (text : String) :
    (decode Γ s (some text) target).1.result = .ok .none ↔ text = "" := by
  rw [decode_eq_none_iff hnull]
  simp [present?, Option.filter]

end Payload

namespace Message

/-- The last payload under a key. Entries without one do not count. -/
def lastPayload? (key : String) : List KeyValue → Option String
  | [] => none
  | kv :: rest => (lastPayload? key rest).or (if kv.key == key then kv.value else none)

end Message

theorem lookup_put {β : Type} (k key : String) (value : β) (entries : List (String × β)) :
    (Json.put key value entries).lookup k = if k == key then some value else entries.lookup k := by
  induction entries with
  | nil => cases h : k == key <;> simp [Json.put, List.lookup_cons, h]
  | cons e rest ih =>
    obtain ⟨name, old⟩ := e
    unfold Json.put
    by_cases hname : name = key
    · subst hname
      cases h : k == name <;> simp [List.lookup_cons, h]
    · have hne : (name == key) = false := by simpa using hname
      rw [hne]
      by_cases hk : k = name
      · subst hk
        simp [hname]
      · have hkn : (k == name) = false := by simpa using hk
        simp [List.lookup_cons, hkn, ih]

theorem Run.result_decoded_eq_ok {d : Payload.Decoded} {v : Value} :
    (Run.decoded d).result = .ok v ↔ d.result = .ok v := by
  unfold decoded
  cases d.result <;> simp [Except.mapError]

namespace Client
variable {c : Client} {service : Service} {s : Descriptors} {target : Target}
  {workflowId runId : Value} {os : List StateOutput}

/-- A simple result is made of the outputs, if there are any to be had. -/
theorem result_simple : (c.result service s workflowId runId "SIMPLE" target).1.result =
    (outputs service workflowId runId).result.bind fun os =>
      (c.onlyOutput s workflowId target os).1.result := by
  unfold result
  cases h : (outputs service workflowId runId).result with
  | error e => simp only [h, Except.bind]
  | ok os => simp only [h, Except.bind, shaped, ResultMode.ofName?]

theorem result_onlyOutput (id payload : String) :
    (c.onlyOutput s workflowId target [⟨id, some payload⟩]).1.result =
      (Payload.decode c.catalog s (some payload) target).1.result.mapError .decoding := rfl

theorem onlyOutput_eq_none_iff (hnull : Payload.RefusesNull c.catalog s target) :
    (c.onlyOutput s workflowId target os).1.result = .ok .none ↔
      os = [] ∨ ∃ id, os = [⟨id, some ""⟩] := by
  match os with
  | [] => exact iff_of_true rfl (.inl rfl)
  | [⟨id, none⟩] => exact iff_of_false (fun h => by cases h) (by simp)
  | [⟨id, some payload⟩] =>
    have hdecode := Payload.decode_text_eq_none_iff hnull payload
    rw [result_onlyOutput]
    cases hd : (Payload.decode c.catalog s (some payload) target).1.result with
    | error e =>
      rw [hd] at hdecode
      have hp : payload ≠ "" := fun heq => by cases hdecode.mpr heq
      exact iff_of_false (fun h => by cases h) (by simp [hp])
    | ok v =>
      rw [hd] at hdecode
      have hv : Except.mapError Failure.decoding (.ok v) = .ok .none ↔ payload = "" := by
        rw [← hdecode]
        simp [Except.mapError]
      simpa using hv
  | o₁ :: o₂ :: more => exact iff_of_false (fun h => by cases h) (by simp)

theorem onlyOutput_eq_missing_iff {id : String} :
    (c.onlyOutput s workflowId target os).1.result =
      .error (.diagnostic (.missingOutput workflowId id)) ↔ os = [⟨id, none⟩] := by
  match os with
  | [] => exact iff_of_false (fun h => by cases h) (by simp)
  | [⟨id', none⟩] =>
    have hrun : (c.onlyOutput s workflowId target [⟨id', none⟩]).1.result =
      .error (.diagnostic (.missingOutput workflowId id')) := rfl
    rw [hrun]
    constructor
    · intro h
      have hd := Failure.diagnostic.inj (Except.error.inj h)
      simp only [Diagnostic.missingOutput, Diagnostic.single.injEq, Kind.missingOutput.injEq] at hd
      rw [hd.1.2]
    · intro h
      cases h
      rfl
  | [⟨id', some payload⟩] =>
    refine iff_of_false (fun h => ?_) (by simp)
    rw [result_onlyOutput] at h
    cases hd : (Payload.decode c.catalog s (some payload) target).1.result <;> rw [hd] at h <;>
      cases h
  | o₁ :: o₂ :: more => exact iff_of_false (fun h => by cases h) (by simp)

/-- The descriptor by which an attribute is decoded. -/
theorem result_attributeType (t : WorkflowType) (key : String) :
    (attributeType t key).result = .ok ((t.attributeType? key).getD .any) := by
  unfold attributeType
  cases t.attributeType? key <;> rfl

/-- Each attribute has the value of its last payload, and is left out if there is none. -/
theorem lookup_of_decodeAttributes {t : WorkflowType} {found out : List (String × Value)}
    {kvs : List KeyValue} (h : (c.decodeAttributes t found kvs).result = .ok out) (key : String) :
    match lastPayload? key kvs with
    | none => out.lookup key = found.lookup key
    | some payload => ∃ v, out.lookup key = some v ∧
      (Payload.decodeWith c.catalog ((t.attributeType? key).getD .any) (some payload)).result =
        .ok v := by
  induction kvs generalizing found with
  | nil =>
    cases h
    rfl
  | cons kv rest ih =>
    obtain ⟨name, value⟩ := kv
    cases value with
    | none =>
      have hlast : lastPayload? key (⟨name, none⟩ :: rest) = lastPayload? key rest := by
        simp [lastPayload?]
      rw [hlast]
      exact ih h
    | some payload =>
      obtain ⟨d, hd, h⟩ := Run.result_bind_eq_ok.mp h
      obtain ⟨v, hv, h⟩ := Run.result_bind_eq_ok.mp h
      have hrest := ih h
      unfold lastPayload?
      cases hlast : lastPayload? key rest with
      | some later =>
        rw [hlast] at hrest
        exact hrest
      | none =>
        rw [hlast] at hrest
        dsimp only at hrest
        rw [lookup_put] at hrest
        by_cases hname : key = name
        · subst hname
          rw [result_attributeType] at hd
          cases hd
          simpa using ⟨v, by simpa using hrest, Run.result_decoded_eq_ok.mp hv⟩
        · have hne : (name == key) = false := by simpa using Ne.symm hname
          simpa [hne, hname] using hrest

/-- A query that succeeds has decoded the entries of the answer to its one request. -/
theorem query_eq_ok {type : String} {keys : Option Keys} {found : List (String × Value)}
    (h : (c.query service type workflowId runId keys).result = .ok found) :
    ∃ t request response kvs, c.registry.get? type = some t ∧
      (c.attributesRequest type workflowId runId keys).result = .ok (t, request) ∧
      (service.queryAttributes request).result = .ok response ∧ response.attributes = some kvs ∧
      (c.decodeAttributes t [] kvs).result = .ok found := by
  obtain ⟨⟨t, request⟩, hrequest, h⟩ := Run.result_bind_eq_ok.mp h
  obtain ⟨response, hresponse, h⟩ := Run.result_bind_eq_ok.mp h
  have hget : c.registry.get? type = some t := by
    unfold attributesRequest at hrequest
    split at hrequest
    · cases hrequest
    · rename_i t' ht'
      dsimp only at hrequest
      split at hrequest
      · obtain ⟨_, -, hrest⟩ := Run.result_bind_eq_ok.mp hrequest
        obtain ⟨_, -, hrest⟩ := Run.result_bind_eq_ok.mp hrest
        obtain ⟨r, -, hpair⟩ := Run.result_bind_pure hrest
        rw [ht', (Prod.mk.inj hpair).1]
      · cases hrequest
  have hanswer : (service.queryAttributes request).result = .ok response := by
    unfold Run.call at hresponse
    cases hr : (service.queryAttributes request).result <;> simp_all [Except.mapError]
  unfold attributesOf at h
  split at h
  · cases h
  · rename_i kvs hkvs
    exact ⟨t, request, response, kvs, hget, hrequest, hanswer, hkvs, h⟩

/-- What the client makes of absent payloads where null is no value of the type. A simple result is
null if no state left an output, and also if the only output is an empty text: it is missing only
where there is no text at all. An attribute is left out if none of its entries has a text; if the
last text is empty it is null. -/
theorem absent_payloads (c : Client) (service : Service) :
    (∀ (s : Descriptors) (workflowId runId : Value) (target : Target),
      Payload.RefusesNull c.catalog s target →
      let answer := (c.result service s workflowId runId "SIMPLE" target).1.result
      (∀ e, (outputs service workflowId runId).result = .error e → answer = .error e) ∧
      ∀ os, (outputs service workflowId runId).result = .ok os →
        (answer = .ok .none ↔ os = [] ∨ ∃ id, os = [⟨id, some ""⟩]) ∧
        ∀ id, answer = .error (.diagnostic (.missingOutput workflowId id)) ↔ os = [⟨id, none⟩]) ∧
    ∀ (type : String) (workflowId runId : Value) (keys : Option Keys)
      (found : List (String × Value)),
      (c.query service type workflowId runId keys).result = .ok found →
      ∃ t request response kvs, c.registry.get? type = some t ∧
        (c.attributesRequest type workflowId runId keys).result = .ok (t, request) ∧
        (service.queryAttributes request).result = .ok response ∧ response.attributes = some kvs ∧
        ∀ key d, t.attributeType? key = some d →
          Payload.RefusesNull c.catalog {} (.descriptor d) →
          (found.lookup key = none ↔ lastPayload? key kvs = none) ∧
          (found.lookup key = some .none ↔ lastPayload? key kvs = some "") := by
  refine ⟨fun s workflowId runId target hnull => ⟨fun e he => ?_, fun os hos => ?_⟩,
    fun type workflowId runId keys found h => ?_⟩
  · rw [result_simple, he]
    rfl
  · rw [result_simple, hos]
    exact ⟨onlyOutput_eq_none_iff hnull, fun id => onlyOutput_eq_missing_iff⟩
  · obtain ⟨t, request, response, kvs, hget, hrequest, hanswer, hkvs, h⟩ := query_eq_ok h
    refine ⟨t, request, response, kvs, hget, hrequest, hanswer, hkvs, fun key d hd hnull => ?_⟩
    have hlookup := lookup_of_decodeAttributes h key
    rw [hd] at hlookup
    cases hlast : lastPayload? key kvs with
    | none =>
      rw [hlast] at hlookup
      simp [hlookup]
    | some payload =>
      rw [hlast] at hlookup
      obtain ⟨v, hv, hdecode⟩ := hlookup
      have hiff := Payload.decode_text_eq_none_iff hnull payload
      rw [Option.getD_some] at hdecode
      rw [Payload.decode_descriptor, hdecode] at hiff
      simpa [hv] using hiff

def totals : Descriptor := ⟨1, .primitive .int⟩

/-- Orders have a total. -/
def summed : WorkflowType where
  toDeclaration := { name := "Order", attributes := [⟨"total", totals⟩] }
  named := by decide
  states_nodup := by decide
  channels_nodup := by decide
  attributes_nodup := by decide

def counter : Client := { catalog := Samples.Orders.catalog, registry := ⟨[summed], by decide⟩ }

/-- The service whose payloads are empty texts. -/
def blank : Service :=
  { obliging with
    getWithWait := fun _ => ⟨.ok { results := some [⟨"ship", some ""⟩] }, []⟩
    queryAttributes := fun _ => ⟨.ok { attributes := some [⟨"total", some ""⟩] }, []⟩ }

theorem refusesNull_totals : Payload.RefusesNull counter.catalog {} (.descriptor totals) := by
  rintro v ⟨⟩

theorem absent_payloads_blank :
    Payload.RefusesNull counter.catalog {} (.descriptor totals) ∧
      ((counter.result blank {} (.str "order-1") .none "SIMPLE" (.descriptor totals)).1.result =
        .ok .none ↔ [StateOutput.mk "ship" (some "")] = [] ∨
          ∃ id, [StateOutput.mk "ship" (some "")] = [⟨id, some ""⟩]) := by
  have h := (absent_payloads counter blank).1 {} (.str "order-1") .none (.descriptor totals)
    refusesNull_totals
  exact ⟨refusesNull_totals, (h.2 [⟨"ship", some ""⟩] rfl).1⟩

/-- An output and an attribute that are absent come back as null, and null is no integer. -/
theorem blank_is_null :
    Payload.RefusesNull counter.catalog {} (.descriptor totals) ∧
      (counter.result blank {} (.str "order-1") .none "SIMPLE" (.descriptor totals)).1.result =
        .ok .none ∧
      (counter.query blank "Order" (.str "order-1") .none none).result =
        .ok [("total", .none)] :=
  ⟨refusesNull_totals, rfl, rfl⟩

end Client
end WorkflowClient
