import WorkflowClient.Proofs.Client.Absence
import WorkflowClient.Proofs.Client.Endings
import WorkflowClient.Proofs.Descriptor.Identity
import WorkflowClient.Proofs.Json.Entries
import WorkflowClient.Proofs.Message.Requests
import WorkflowClient.Proofs.Message.Wire
import WorkflowClient.Proofs.Payload.RoundTrip
import WorkflowClient.Proofs.Registry

/-! Queries for attributes: which are refused, what is asked for, and how the entries of an answer
come together. -/
namespace WorkflowClient
open Message
open Diagnostic (tick)

namespace Message

/-- The entries that have a value, with its text. -/
def filled (kvs : List KeyValue) : List (String × String) :=
  kvs.filterMap fun kv => kv.value.map fun payload => (kv.key, payload)

@[simp] theorem filled_nil : filled [] = [] := rfl

@[simp] theorem filled_some (key payload : String) (rest : List KeyValue) :
    filled (⟨key, some payload⟩ :: rest) = (key, payload) :: filled rest := rfl

end Message

namespace Client
variable {c : Client} {type : String} {t : WorkflowType} {found out : List (String × Value)}
  {kvs : List KeyValue} {keys : Option Keys}

/-- What the payload of an entry is decoded to: by the type that is declared for the key, or as
anything. -/
def reading (c : Client) (t : WorkflowType) (entry : String × String) :
    Except Payload.DecodeFailure Value :=
  (Payload.decodeWith c.catalog ((t.attributeType? entry.1).getD .any) (some entry.2)).result

/-- The entry can be decoded. -/
def Reads (c : Client) (t : WorkflowType) (entry : String × String) : Prop :=
  ∃ v, c.reading t entry = .ok v

/-- The failure of the first entry that cannot be decoded. -/
def FailsFirst (c : Client) (t : WorkflowType) (entries : List (String × String))
    (e : Payload.DecodeFailure) : Prop :=
  ∃ before entry after, entries = before ++ entry :: after ∧ (∀ b ∈ before, c.Reads t b) ∧
    c.reading t entry = .error e

/-- Each key is there once, where it came first, with what its last payload is decoded to. -/
structure Collects (c : Client) (t : WorkflowType) (kvs : List KeyValue)
    (found : List (String × Value)) : Prop where
  keys : found.map (·.1) = ((filled kvs).map (·.1)).eraseDups
  values (key payload : String) : lastPayload? key kvs = some payload →
    ∃ v, found.lookup key = some v ∧ c.reading t (key, payload) = .ok v

theorem FailsFirst.cons {entry : String × String} {entries : List (String × String)}
    {e : Payload.DecodeFailure} (hr : c.Reads t entry) (h : c.FailsFirst t entries e) :
    c.FailsFirst t (entry :: entries) e := by
  obtain ⟨before, failing, after, rfl, hb, he⟩ := h
  exact ⟨entry :: before, failing, after, rfl, List.forall_mem_cons.mpr ⟨hr, hb⟩, he⟩

theorem FailsFirst.not_forall_reads {entries : List (String × String)} {e : Payload.DecodeFailure}
    (h : c.FailsFirst t entries e) : ¬ ∀ entry ∈ entries, c.Reads t entry := by
  obtain ⟨before, failing, after, rfl, -, he⟩ := h
  intro hall
  obtain ⟨v, hv⟩ := hall failing (by simp)
  rw [he] at hv
  cases hv

theorem result_decodeAttributes_cons (key payload : String) (rest : List KeyValue) :
    (c.decodeAttributes t found (⟨key, some payload⟩ :: rest)).result =
      ((c.reading t (key, payload)).mapError .decoding).bind fun v =>
        (c.decodeAttributes t (Json.put key v found) rest).result := by
  rw [decodeAttributes, Run.result_bind, result_attributeType]
  exact Run.result_bind _ _

/-- Entries are decoded up to the first one that fails. -/
theorem decodeAttributes_cases (c : Client) (t : WorkflowType) (kvs : List KeyValue)
    (found : List (String × Value)) :
    (∃ e, c.FailsFirst t (filled kvs) e ∧
        (c.decodeAttributes t found kvs).result = .error (.decoding e)) ∨
      (∀ entry ∈ filled kvs, c.Reads t entry) ∧
        ∃ out, (c.decodeAttributes t found kvs).result = .ok out := by
  -- Which entry fails first does not depend on what was found before it.
  induction kvs generalizing found with
  | nil => exact .inr ⟨by simp, found, rfl⟩
  | cons kv rest ih =>
    obtain ⟨key, _ | payload⟩ := kv
    · exact ih found
    · rw [result_decodeAttributes_cons, filled_some]
      cases hread : c.reading t (key, payload) with
      | error e => exact .inl ⟨e, ⟨[], _, _, rfl, by simp, hread⟩, rfl⟩
      | ok v =>
        have hreads : c.Reads t (key, payload) := ⟨v, hread⟩
        rcases ih (Json.put key v found) with ⟨e, hfirst, herror⟩ | ⟨hall, hok⟩
        · exact .inl ⟨e, hfirst.cons hreads, herror⟩
        · exact .inr ⟨List.forall_mem_cons.mpr ⟨hreads, hall⟩, hok⟩

/-- The keys are those found before, and then those of the entries, each where it came first. -/
theorem names_decodeAttributes (h : (c.decodeAttributes t found kvs).result = .ok out)
    (hn : (found.map (·.1)).Nodup) :
    out.map (·.1) = (found.map (·.1) ++ (filled kvs).map (·.1)).eraseDups := by
  induction kvs generalizing found with
  | nil =>
    cases h
    simp [Text.eraseDups_of_nodup hn]
  | cons kv rest ih =>
    obtain ⟨key, _ | payload⟩ := kv
    · exact ih h hn
    · rw [result_decodeAttributes_cons] at h
      cases hread : c.reading t (key, payload) with
      | error e =>
        rw [hread] at h
        cases h
      | ok v =>
        rw [hread] at h
        rw [ih h (Json.nodup_put hn), Json.eraseDups_names_put, filled_some, List.map_cons]

theorem collects_of_decodeAttributes (h : (c.decodeAttributes t [] kvs).result = .ok out) :
    c.Collects t kvs out where
  keys := names_decodeAttributes h List.nodup_nil
  values key payload hlast := by
    have hlookup := lookup_of_decodeAttributes h key
    rw [hlast] at hlookup
    exact hlookup

/-- The keys that a query names. Without any it is for all attributes. -/
def asked : Option Keys → List String
  | some ks => ks.toList
  | none => []

/-- The keys that a query names and the type does not declare. -/
def unknown (t : WorkflowType) (keys : Option Keys) : List String :=
  (asked keys).filter (· ∉ t.attributeKeys)

/-- The request for attributes. -/
def asking (workflowId : String) (runId : Option String) (keys : Option Keys) :
    AttributesRequest :=
  { workflowId, runId, keys := if asked keys = [] then none else some (asked keys) }

theorem filter_eq_unknown (t : WorkflowType) (keys : Option Keys) :
    (asked keys).filter (fun k => (t.attributeType? k).isNone) = unknown t keys := by
  refine List.filter_congr fun k _ => ?_
  rw [Bool.eq_iff_iff, Option.isNone_iff_eq_none, t.attributeType?_eq_none_iff, decide_eq_true_iff]

theorem attributesRequest_of_unknown (ht : c.registry.get? type = some t)
    (hu : unknown t keys ≠ []) (workflowId runId : Value) :
    c.attributesRequest type workflowId runId keys =
      Run.reject (.unknownAttributes type (unknown t keys)) := by
  have hunknown := filter_eq_unknown t keys
  unfold attributesRequest
  rw [ht]
  dsimp only
  split
  · rename_i hnil
    exact absurd (hunknown.symm.trans hnil) hu
  · exact congrArg (fun ks => Run.reject (.unknownAttributes type ks)) hunknown

theorem nullable_list_keys (ks : List String) :
    nullable (list text) (if ks.isEmpty then .none else .sequence .list (ks.map .str)) =
      .ok (if ks = [] then none else some ks) := by
  cases ks with
  | nil => rfl
  | cons k ks => exact congrArg (Except.map some) (list_text_map (k :: ks))

theorem ofMembers_asking (workflowId : String) (runId : Option String) (ks : List String) :
    AttributesRequest.shape.ofMembers
      [("workflow_id", .str workflowId), ("workflow_run_id", ofText? runId),
        ("attribute_keys", if ks.isEmpty then .none else .sequence .list (ks.map .str))] =
      .ok { workflowId, runId, keys := if ks = [] then none else some ks } :=
  AttributesRequest.ofMembers_eq_ok.mpr
    ⟨rfl, nullable_text_ofText? runId, nullable_list_keys ks⟩

theorem attributesRequest_of_known (ht : c.registry.get? type = some t) (hk : unknown t keys = [])
    (workflowId : String) (runId : Option String) :
    c.attributesRequest type (.str workflowId) (ofText? runId) keys =
      ⟨.ok (t, asking workflowId runId keys), [],
        [⟨.client, Log.debug, "Querying attributes of workflow " ++ tick workflowId⟩]⟩ := by
  unfold attributesRequest
  rw [ht]
  dsimp only
  split
  · rw [ofMembers_asking]
    rfl
  · rename_i hne
    exact absurd ((filter_eq_unknown t keys).trans hk) hne

theorem query_of_unregistered (h : ∀ t ∈ c.registry.types, t.name ≠ type) (service : Service)
    (workflowId runId : Value) (keys : Option Keys) :
    c.query service type workflowId runId keys = Run.reject (.typeNotRegistered type) := by
  unfold query attributesRequest
  rw [Registry.get?_eq_none_iff.mpr h]
  rfl

theorem query_of_unknown (ht : c.registry.get? type = some t) (hu : unknown t keys ≠ [])
    (service : Service) (workflowId runId : Value) :
    c.query service type workflowId runId keys =
      Run.reject (.unknownAttributes type (unknown t keys)) := by
  rw [query, attributesRequest_of_unknown ht hu]
  rfl

theorem query_of_known (ht : c.registry.get? type = some t) (hk : unknown t keys = [])
    (service : Service) (workflowId : String) (runId : Option String) :
    let run := c.query service type (.str workflowId) (ofText? runId) keys
    let request := asking workflowId runId keys
    run.calls = [.queryAttributes request] ∧
      (∀ e, (service.queryAttributes request).result = .error e →
        run.result = .error (.service e)) ∧
      ∀ response, (service.queryAttributes request).result = .ok response →
        run.result = (c.attributesOf t response).result := by
  intro run request
  have hrun : run = _ := Run.bind_of_ok (attributesRequest_of_known ht hk workflowId runId) _
  rw [hrun]
  exact Run.call_bind (.queryAttributes request) (service.queryAttributes request)
    (calls_attributesOf (c := c) t)

/-- A query from its arguments to its result. A type that is not registered is refused, and so are
keys that the type does not declare, all of which are named. Otherwise one request goes out, with
the keys as they were given, or without any. Of the entries of the answer that have a value, the
first that cannot be decoded decides; if all can be, the last one under each key counts. -/
theorem query_outcomes (c : Client) (service : Service) (type workflowId : String)
    (runId : Option String) (keys : Option Keys) :
    let run := c.query service type (.str workflowId) (ofText? runId) keys
    ((∀ t ∈ c.registry.types, t.name ≠ type) → run.Refused (.typeNotRegistered type)) ∧
    ∀ t ∈ c.registry.types, t.name = type →
      (unknown t keys ≠ [] → run.Refused (.unknownAttributes type (unknown t keys))) ∧
      (unknown t keys = [] →
        let request := asking workflowId runId keys
        run.calls = [.queryAttributes request] ∧
        (∀ e, (service.queryAttributes request).result = .error e →
          run.result = .error (.service e)) ∧
        ∀ response, (service.queryAttributes request).result = .ok response →
          (response.attributes = none →
            Reports run.result (.malformedResponse "query attributes" "queryAttributes")) ∧
          ∀ kvs, response.attributes = some kvs →
            ((∃ entry ∈ filled kvs, ¬ c.Reads t entry) →
              ∃ e, c.FailsFirst t (filled kvs) e ∧ run.result = .error (.decoding e)) ∧
            ((∀ entry ∈ filled kvs, c.Reads t entry) →
              ∃ found, run.result = .ok found ∧ c.Collects t kvs found)) := by
  refine ⟨fun h => ?_, fun t hmem hname => ⟨fun hu => ?_, fun hk => ?_⟩⟩
  · rw [query_of_unregistered h]
    exact Run.refused_reject (Diagnostic.shows_typeNotRegistered type)
  · rw [query_of_unknown (Registry.get?_eq_some_iff.mpr ⟨hmem, hname⟩) hu]
    exact Run.refused_reject (Diagnostic.shows_unknownAttributes type _)
  · have ht := Registry.get?_eq_some_iff.mpr ⟨hmem, hname⟩
    obtain ⟨hcalls, herror, hok⟩ := query_of_known ht hk service workflowId runId
    refine ⟨hcalls, herror, fun response hresponse => ⟨fun hnone => ?_, fun kvs hkvs => ?_⟩⟩
    · rw [hok response hresponse, attributesOf, hnone]
      exact ⟨_, rfl, Diagnostic.shows_malformedResponse ..⟩
    · rw [hok response hresponse, attributesOf, hkvs]
      rcases decodeAttributes_cases c t kvs [] with ⟨e, hfirst, herror⟩ | ⟨hall, out, hout⟩
      · exact ⟨fun _ => ⟨e, hfirst, herror⟩, fun hall => absurd hall hfirst.not_forall_reads⟩
      · refine ⟨?_, fun _ => ⟨out, hout, collects_of_decodeAttributes hout⟩⟩
        rintro ⟨entry, hmem, hnot⟩
        exact absurd (hall entry hmem) hnot

/-- Entries of which one has no value, one is of an undeclared key, and one is put right later. -/
def entries : List KeyValue :=
  [⟨"total", some "1"⟩, ⟨"note", none⟩, ⟨"rush", some "true"⟩, ⟨"total", some "2"⟩]

/-- The service that answers every query with those entries. -/
def wordy : Service :=
  { obliging with queryAttributes := fun _ => ⟨.ok { attributes := some entries }, []⟩ }

theorem reads_entries : ∀ entry ∈ filled entries, counter.Reads summed entry := by
  change ∀ entry ∈ [("total", "1"), ("rush", "true"), ("total", "2")], counter.Reads summed entry
  simp only [List.forall_mem_cons]
  exact ⟨⟨.int 1, rfl⟩, ⟨.bool true, rfl⟩, ⟨.int 2, rfl⟩, by simp⟩

theorem query_outcomes_total :
    summed ∈ counter.registry.types ∧ (∀ entry ∈ filled entries, counter.Reads summed entry) ∧
      ∃ found, (counter.query wordy "Order" (.str "order-1") (ofText? none)
          (some (.list ["total", "total"]))).result = .ok found ∧
        found.map (·.1) = ["total", "rush"] ∧ found.lookup "total" = some (.int 2) := by
  have hmem : summed ∈ counter.registry.types := List.mem_singleton_self _
  have h := (query_outcomes counter wordy "Order" "order-1" none
    (some (.list ["total", "total"]))).2 summed hmem rfl
  obtain ⟨-, -, hanswer⟩ := h.2 (by decide)
  obtain ⟨found, hfound, hcollects⟩ := ((hanswer _ rfl).2 entries rfl).2 reads_entries
  obtain ⟨v, hv, hread⟩ := hcollects.values "total" "2" rfl
  cases hread
  exact ⟨hmem, reads_entries, found, hfound, hcollects.keys, hv⟩

open Descriptors (intOrStr strOrInt)

/-- Orders with two labels, of which the second was declared as `strOrInt`. -/
def labelled : WorkflowType where
  name := "Order"
  attributes := [⟨"first", ⟨1, intOrStr⟩⟩, ⟨"second", ⟨1, intOrStr⟩⟩]
  named := by decide
  states_nodup := by decide
  channels_nodup := by decide
  attributes_nodup := by decide

def labeller : Client := { catalog := Samples.Orders.catalog, registry := ⟨[labelled], by decide⟩ }

/-- The service that has a list for the second label. -/
def listing : Service :=
  { obliging with
    queryAttributes := fun _ => ⟨.ok { attributes := some [⟨"second", some "[]"⟩] }, []⟩ }

/-- What making the settings of a start raises, if it is an error of the client. -/
def raisedBy? : Except Failure StartOptions → Option Raised
  | .error (.diagnostic d) => some ⟨d.name, d.message⟩
  | _ => none

def timingRaises : Value → Option Raised
  | .dict entries => raisedBy? (StartOptions.ofMembers (membersOf entries))
  | _ => none

def timing : TypeExpr := .named "WorkflowStartOptions"

def timingFields : List FieldDef :=
  [{ name := "workflow_timeout_seconds", type := .primitive .int, default := some (.int 0) }]

/-- An application that uses the settings of a start as a class of its own. -/
def timings : Catalog where
  classes := [{ name := "WorkflowStartOptions", body := .model timingFields .ignored }]
  serialize _ _ := .ok (.object [])
  raises _ T v := if T == timing then timingRaises v else none

def timed : WorkflowType where
  name := "Order"
  attributes := [⟨"timing", ⟨1, timing⟩⟩]
  named := by decide
  states_nodup := by decide
  channels_nodup := by decide
  attributes_nodup := by decide

def timer : Client := { catalog := timings, registry := ⟨[timed], by decide⟩ }

/-- Settings with a timeout below zero. -/
def hurry : Json := .object [("workflow_timeout_seconds", .int (-1))]

def hurrying : Service :=
  { obliging with
    queryAttributes := fun _ =>
      ⟨.ok { attributes := some [⟨"timing", some (String.ofList (hurry.chars Json.compact))⟩] }, []⟩ }

def tooHurried : Raised :=
  ⟨"ConfigurationError", "workflow_timeout_seconds must be non-negative"⟩

theorem timingRaises_hurry : timingRaises (.ofJson hurry) = some tooHurried := by
  have hread : StartOptions.reading.run [("workflow_timeout_seconds", .int (-1))] = .ok ⟨-1⟩ := rfl
  have hmembers : timingRaises (.ofJson hurry) =
      raisedBy? (StartOptions.ofMembers [("workflow_timeout_seconds", .int (-1))]) := by
    rw [hurry, Value.ofJson, Value.ofJsonMembers, Value.ofJsonMembers, timingRaises, membersOf]
    rfl
  rw [hmembers, StartOptions.ofMembers, hread]
  dsimp only
  rw [StartOptions.check, if_pos (by decide), if_pos (by decide +kernel)]
  rfl

theorem reading_hurry :
    timer.reading timed ("timing", String.ofList (hurry.chars Json.compact)) =
      .error (.raised tooHurried) := by
  have hlegible : Json.Legible hurry := .object (by simpa using .int (by decide +kernel))
  have hread := Json.read_chars_some hlegible Payload.depthLimit
  rw [if_pos (by decide)] at hread
  have hraised : timings.raised? .data timing (.ofJson hurry) = some tooHurried := by
    have hraises (v : Value) : timings.raises .data timing v = timingRaises v := rfl
    rw [Catalog.raised?, if_pos (by decide), hraises, timingRaises_hurry]
  have hdecode : Payload.decodeAs timings timing (String.ofList (hurry.chars Json.compact)) =
      .error (.raised tooHurried) := by
    rw [Payload.decodeAs, hread]
    dsimp only
    rw [Validation.examine, hraised]
  rw [reading, Payload.decodeWith, Payload.present?_chars hlegible]
  change (Payload.decodeText timings ⟨1, timing⟩
    (String.ofList (hurry.chars Json.compact))).result = _
  rw [Payload.decodeText, hdecode]

/-- The declaration of the second label is given the descriptor of the first, so the error of its
payload names the type of the first. Settings with a timeout below zero end in what their own check
raises, which is no error of the codec. -/
theorem attributes_fail_otherwise :
    (Declaration.valueType Samples.Orders.catalog
        (Descriptors.after Samples.Orders.catalog [.describe (.type intOrStr)]) .attribute "second"
        (.type strOrInt)).map (·.1) = .ok ⟨1, intOrStr⟩ ∧
      (∃ faults, (labeller.query listing "Order" (.str "order-1") .none none).result =
        .error (.decoding (.invalid intOrStr.name faults))) ∧
      intOrStr.name ≠ strOrInt.name ∧
      (timer.query hurrying "Order" (.str "order-1") .none none).result =
        .error (.decoding (.raised tooHurried)) := by
  refine ⟨rfl, ⟨_, rfl⟩, by decide, ?_⟩
  have ht : timer.registry.get? "Order" = some timed := rfl
  have hknown : unknown timed none = [] := rfl
  have hanswer := (query_of_known ht hknown hurrying "order-1" none).2.2 _ rfl
  have hresult : (timer.decodeAttributes timed []
      [⟨"timing", some (String.ofList (hurry.chars Json.compact))⟩]).result = _ :=
    result_decodeAttributes_cons ..
  rw [reading_hurry] at hresult
  exact hanswer.trans hresult

end Client
end WorkflowClient
