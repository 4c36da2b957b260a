import WorkflowClient.Proofs.Descriptor.Identity
import WorkflowClient.Proofs.Diagnostic.Causes
import WorkflowClient.Proofs.Payload.RoundTrip
import WorkflowClient.Proofs.Payload.Text

/-! How encoding and decoding can fail: by one of the codec's errors, or by what the classes of the
application raise and nothing catches. -/
namespace WorkflowClient.Payload
open Value (Part)

variable {Γ : Catalog} {v : Value} {e : EncodeFault}

/-- Whatever exception the result is, it is one of those meant. -/
def RaisesOnly {α : Type} (P : Raised → Prop) (r : Except EncodeFault α) : Prop :=
  ∀ x, r = .error (.raised x) → P x

section
variable {P : Raised → Prop} {α β : Type}

theorem raisesOnly_ok (a : α) : RaisesOnly P (.ok a : Except EncodeFault α) := by
  rintro x ⟨⟩

theorem RaisesOnly.map {r : Except EncodeFault α} {f : α → β} (h : RaisesOnly P r) :
    RaisesOnly P (r.map f) := fun x hx => h x (Validation.map_eq_error hx)

theorem RaisesOnly.bind {r : Except EncodeFault α} {f : α → Except EncodeFault β}
    (h : RaisesOnly P r) (hf : ∀ a, r = .ok a → RaisesOnly P (f a)) : RaisesOnly P (r.bind f) := by
  cases r with
  | error e =>
    rintro x ⟨⟩
    exact h x rfl
  | ok a => exact hf a rfl

theorem RaisesOnly.mono {Q : Raised → Prop} {r : Except EncodeFault α} (h : RaisesOnly P r)
    (hq : ∀ x, P x → Q x) : RaisesOnly Q r := fun x hx => hq x (h x hx)

theorem mem_of_sequence_error {ε : Type} {rs : List (Except ε α)} {e : ε}
    (h : sequence rs = .error e) : .error e ∈ rs := by
  induction rs with
  | nil => cases h
  | cons r rest ih =>
    cases r with
    | error e' =>
      cases h
      exact List.mem_cons_self
    | ok a =>
      rw [sequence_cons_ok] at h
      exact List.mem_cons_of_mem _ (ih (Validation.map_eq_error h))

theorem raisesOnly_sequence {f : α → Except EncodeFault β} {as : List α}
    (h : ∀ a ∈ as, RaisesOnly P (f a)) : RaisesOnly P (sequence (as.map f)) := by
  intro x hx
  obtain ⟨a, ha, hax⟩ := List.mem_map.mp (mem_of_sequence_error hx)
  exact h a ha x hax

end

/-- What is raised on the way through a value: by a model that dumps itself, for a field that a record
should have, or because the value of a member of an enumeration is handed out and is no plain data. -/
inductive Escapes (Γ : Catalog) (x : Raised) (v : Value) : Prop
  | model {cls : String} {fields : List (String × Value)} (hp : Part (.record .model cls fields) v)
      (h : Γ.serialize cls fields = .error (.raised x))
  | field {cls name : String} {fields : List (String × Value)}
      (hp : Part (.record .data cls fields) v) (hn : name ∈ Γ.fieldNames cls (fields.map (·.1)))
      (hf : fields.lookup name = none) (h : noField cls name = .raised x)
  | value {mixin : Mixin} {cls name : String} {value : Value}
      (hp : Part (.member mixin cls name value) v) (hm : mixin ≠ .plain)
      (hv : ∀ j, value ≠ .ofJson j) (h : x.error = "TypeError")

theorem Escapes.of_part {x : Raised} {p : Value} (h : Escapes Γ x p) (hp : Part p v) :
    Escapes Γ x v := by
  cases h with
  | model hm h => exact .model (hm.trans hp) h
  | field hm hn hf h => exact .field (hm.trans hp) hn hf h
  | value hm hne hv h => exact .value (hm.trans hp) hne hv h

theorem lookup_jsonableFields (fields : List (String × Value)) (name : String) :
    (jsonableFields Γ fields).lookup name = (fields.lookup name).map (jsonable Γ) := by
  induction fields with
  | nil => rfl
  | cons f rest ih =>
    obtain ⟨n, v⟩ := f
    rw [jsonableFields, List.lookup_cons, List.lookup_cons, ih]
    cases name == n <;> rfl

theorem leafJson_raises (v : Value) : RaisesOnly (fun _ => False) (leafJson v) := by
  intro x h
  unfold leafJson at h
  split at h <;> cases h

/-- Encoding raises nothing but what models and missing fields do. -/
theorem jsonable_raises (v : Value) : RaisesOnly (fun x => Escapes Γ x v) (jsonable Γ v) := by
  induction v using Value.inductParts with
  | sequence kind items ih =>
    rw [jsonable, jsonables_eq]
    exact (raisesOnly_sequence fun v hv =>
      (ih v hv).mono fun x hx => hx.of_part (.item hv .self)).map
  | dict entries _ ih =>
    rw [jsonable, jsonableEntries_eq]
    refine (raisesOnly_sequence fun e he => ?_).map
    unfold entryData
    split
    · rename_i e' hname
      unfold nameOf at hname
      split at hname <;> cases hname
      rintro x ⟨⟩
    · exact ((ih e he).mono fun x hx => hx.of_part (.entry he .self)).map
  | record kind cls fields ih =>
    have hfield {f : String × Value} (hf : f ∈ fields) :
        RaisesOnly (fun x => Escapes Γ x (.record kind cls fields)) (jsonable Γ f.2) :=
      (ih f hf).mono fun x hx => hx.of_part (.field hf .self)
    cases kind with
    | model =>
      intro x hx
      exact .model .self (Validation.map_eq_error hx)
    | data =>
      rw [jsonable]
      refine (raisesOnly_sequence fun name hname => ?_).map
      unfold pickField
      rw [lookup_jsonableFields]
      cases hlookup : fields.lookup name with
      | none =>
        intro x hx
        exact .field .self hname hlookup (Except.error.inj hx)
      | some u =>
        obtain ⟨before, after, heq, -⟩ := List.lookup_eq_some_iff.mp hlookup
        have hmem : (name, u) ∈ fields := by
          rw [heq]
          exact List.mem_append_right _ List.mem_cons_self
        exact (hfield hmem).map
    | tuple =>
      rw [jsonable, jsonableFields_eq, List.map_map]
      exact (raisesOnly_sequence fun f hf => hfield hf).map
  | member mixin cls name value ih =>
    cases mixin with
    | plain => exact ih.mono fun x hx => hx.of_part (.member .self)
    | text | integer => exact raisesOnly_ok _
  | leaf v hv =>
    rw [jsonable_leaf hv]
    exact ((leafJson_raises v).mono fun _ => False.elim).map

/-- What is raised where a text should be written of no plain data. -/
def IsTypeError (x : Raised) : Prop := x.error = "TypeError"

theorem dataOfInt_raises {P : Raised → Prop} (n : Int) : RaisesOnly P (dataOfInt n) := by
  intro x h
  unfold dataOfInt at h
  split at h <;> cases h

theorem notPlain_raises {α : Type} (className : String) :
    RaisesOnly IsTypeError (.error (notPlain className) : Except EncodeFault α) := by
  rintro x ⟨⟩
  rfl

theorem keyName_raises (key : Value) : RaisesOnly IsTypeError (keyName key) := by
  unfold keyName
  split
  · exact raisesOnly_ok _
  · exact raisesOnly_ok _
  · exact (dataOfInt_raises _).map
  · exact (dataOfInt_raises _).map
  · split
    · exact raisesOnly_ok _
    · rintro x ⟨⟩
  · exact raisesOnly_ok _
  · exact raisesOnly_ok _
  · rintro x ⟨⟩
    rfl

theorem dataOf_raises (v : Value) : RaisesOnly IsTypeError (dataOf v) := by
  induction v using Value.inductParts with
  | sequence kind items ih =>
    cases kind with
    | list | tuple =>
      rw [dataOf, dataOfItems_eq]
      exact (raisesOnly_sequence ih).map
    | _ => exact notPlain_raises _
  | dict entries _ ih =>
    rw [dataOf, dataOfEntries_eq]
    refine (raisesOnly_sequence fun e he => ?_).map
    exact (keyName_raises e.1).bind fun name _ => (ih e he).map
  | record kind cls fields ih =>
    cases kind with
    | tuple =>
      rw [dataOf, dataOfFields_eq]
      exact (raisesOnly_sequence ih).map
    | _ => exact notPlain_raises _
  | member mixin cls name value ih =>
    cases mixin with
    | plain => exact notPlain_raises _
    | text =>
      cases value with
      | str s => exact raisesOnly_ok _
      | _ => exact notPlain_raises _
    | integer =>
      cases value with
      | int n =>
        rw [dataOf]
        exact (dataOfInt_raises n).map
      | _ => exact notPlain_raises _
  | leaf v hv =>
    cases v with
    | sequence | dict | record | member => cases hv
    | none | bool | str => exact raisesOnly_ok _
    | int n =>
      rw [dataOf]
      exact (dataOfInt_raises n).map
    | float x =>
      unfold dataOf
      split
      · exact raisesOnly_ok _
      · rintro x ⟨⟩
    | _ => exact notPlain_raises _

/-- Of plain data only numbers can have no text, and nothing is raised for these. -/
theorem dataOf_ofJson_raises (j : Json) : RaisesOnly (fun _ => False) (dataOf (.ofJson j)) := by
  induction j using Json.inductParts with
  | null | bool | str => exact raisesOnly_ok _
  | int n =>
    rw [Value.ofJson, dataOf]
    exact (dataOfInt_raises n).map
  | float x =>
    rw [Value.ofJson, dataOf]
    split
    · exact raisesOnly_ok _
    · rintro x ⟨⟩
  | array items ih =>
    rw [Value.ofJson, Value.ofJsonItems_eq_map, dataOf, dataOfItems_eq]
    exact (raisesOnly_sequence (List.forall_mem_map.mpr ih)).map
  | object members ih =>
    rw [Value.ofJson, Value.ofJsonMembers_eq_map, dataOf, dataOfEntries_eq]
    refine (raisesOnly_sequence (List.forall_mem_map.mpr fun m hm => ?_)).map
    exact (raisesOnly_ok m.1).bind fun _ _ => (ih m hm).map

/-- Every datum has a text with something in it. -/
theorem chars_ne_nil (j : Json) : j.chars Json.compact ≠ [] := by
  cases j with
  | null => simp [Json.chars]
  | bool b => cases b <;> simp [Json.chars]
  | int n =>
    obtain ⟨c, more, hc, -⟩ := Json.intText_eq_cons n
    simp [Json.chars, hc]
  | float x =>
    rw [Json.chars]
    cases x with
    | nan => simp [Number.Layout.double]
    | infinite s => simp [Number.Layout.double]
    | finite s m e h =>
      obtain ⟨c, more, hc, -⟩ := Json.double_eq_cons (x := .finite s m e h) rfl
      simp [hc]
  | str s => simp [Json.chars, Json.stringChars]
  | array items => cases items <;> simp [Json.chars]
  | object members => cases members <;> simp [Json.chars]

/-- Why a value has no payload: an error of the codec says it, or something escapes. -/
def EncodeFailure.Explains (Γ : Catalog) (v : Value) : EncodeFailure → Prop
  | .noPayload typeName => ∃ d, (noPayload typeName).diagnostic? = some d ∧
      d.Shows (.encodeFailed typeName)
  | .raised x => (raised x).diagnostic? = none ∧ Escapes Γ x v

theorem explains_failure {e : EncodeFault} (h : ∀ x, e = .raised x → Escapes Γ x v) :
    (e.failure v).Explains Γ v := by
  cases e with
  | raised x => exact ⟨rfl, h x rfl⟩
  | _ => exact ⟨_, rfl, Diagnostic.shows_encodeFailed _⟩

/-- What escapes a value on its way to a text, escapes on its way to plain data, or from a member of
an enumeration that is handed out. -/
theorem escapes_of_dumps {x : Raised} (h : (jsonable Γ v).bind dataOf = .error (.raised x)) :
    Escapes Γ x v := by
  cases hw : jsonable Γ v with
  | error e =>
    rw [hw] at h
    have he : e = .raised x := Except.error.inj h
    exact jsonable_raises v x (he ▸ hw)
  | ok w =>
    rw [hw] at h
    by_cases hm : v.MembersPlain
    · obtain ⟨j, rfl⟩ := exists_ofJson v hm hw
      exact (dataOf_ofJson_raises j x h).elim
    · simp only [Value.MembersPlain, not_forall] at hm
      obtain ⟨mixin, cls, name, value, hp, hne, hvalue⟩ := hm
      exact .value hp hne (not_exists.mp hvalue) (dataOf_raises w x h)

/-- Nothing but the null value is encoded to no payload. -/
theorem encode_eq_none_iff : encode Γ v = .ok none ↔ v = .none := by
  by_cases hv : v = .none
  · subst hv
    exact iff_of_true rfl rfl
  · rw [encode_eq_dumps hv]
    refine iff_of_false ?_ hv
    intro h
    obtain ⟨text, -, hnone⟩ := Validation.map_eq_ok h
    cases hnone

theorem ne_empty_of_encode {text : String} (h : encode Γ v = .ok (some text)) : text ≠ "" := by
  have hv : v ≠ .none := by
    rintro rfl
    cases h
  rw [encode_eq_dumps hv] at h
  obtain ⟨t, ht, htext⟩ := Validation.map_eq_ok h
  cases htext
  unfold dumps at ht
  split at ht <;> cases ht
  simpa using chars_ne_nil _

theorem explains_of_encode {e : EncodeFailure} (h : encode Γ v = .error e) : e.Explains Γ v := by
  have hv : v ≠ .none := by
    rintro rfl
    cases h
  rw [encode_eq_dumps hv] at h
  replace h := Validation.map_eq_error h
  unfold dumps at h
  split at h
  · rename_i fault hfault
    cases h
    refine explains_failure fun x hx => ?_
    subst hx
    exact escapes_of_dumps hfault
  · cases h

/-- A target is refused if it is a type without a schema, and else is given a descriptor. -/
theorem of?_target_cases (h : List Descriptors.Event) (target : Target) :
    (∃ T, target = .type T ∧ T.checkable Γ = false ∧
      (Descriptors.after Γ h).of? Γ target = none) ∨
    ∃ d s, (Descriptors.after Γ h).of? Γ target = some (d, s) ∧
      (target = .descriptor d ∨
        ∃ T, target = .type T ∧ T.checkable Γ = true ∧ (d.type = T ∨ (d.type == T) = true)) := by
  cases target with
  | descriptor d => exact .inr ⟨d, _, rfl, .inl rfl⟩
  | type T =>
    have hsome := Descriptors.isSome_of? (Γ := Γ) h T
    cases hof : (Descriptors.after Γ h).of? Γ (.type T) with
    | none =>
      rw [hof] at hsome
      exact .inl ⟨T, rfl, hsome.symm, rfl⟩
    | some r =>
      rw [hof] at hsome
      refine .inr ⟨r.1, r.2, rfl, .inr ⟨T, rfl, hsome.symm, ?_⟩⟩
      exact (Descriptors.type_of_given h hof).imp_right And.left

/-- What a refusal of a payload comes to, for a target of that name. -/
def DecodeFailure.ofRefusal (name : String) : Validation.Refusal → DecodeFailure
  | .faults fs => .invalid name fs
  | .raised x => .raised x

theorem result_eq_mapError (d : Descriptor) (text : String) : (decodeText Γ d text).result =
    (decodeAs Γ d.type text).mapError (DecodeFailure.ofRefusal d.name) := by
  unfold decodeText
  cases decodeAs Γ d.type text with
  | ok v => rfl
  | error e => cases e <;> rfl

/-- Decoding raises nothing but what the application's own checks of such types do. -/
theorem raises_of_decodeAs {T : TypeExpr} {text : String} {x : Raised}
    (h : decodeAs Γ T text = .error (.raised x)) : T.ownCode = true ∧
      ∃ j, Json.read (some depthLimit) text = .ok j ∧ Γ.raises .data T (.ofJson j) = some x := by
  unfold decodeAs at h
  split at h
  · cases h
  · rename_i j hj
    unfold Validation.examine at h
    split at h
    · rename_i y hy
      cases h
      obtain ⟨hown, hraises⟩ := Option.ite_none_right_eq_some.mp hy
      exact ⟨hown, j, hj, hraises⟩
    · cases hvalid : Validation.validate Γ .data (.ofJson j) T <;> rw [hvalid] at h <;> cases h

theorem shows_of_diagnostic {e : DecodeFailure} {details : List String} {d : Diagnostic}
    (h : e.diagnostic? details = some d) :
    ∃ target, ((e = .noSchema target) ∨ ∃ faults, e = .invalid target faults) ∧
      d.Shows (.decodeFailed target details) := by
  cases e with
  | noSchema target =>
    cases h
    exact ⟨target, .inl rfl, Diagnostic.shows_decodeFailed ..⟩
  | invalid target faults =>
    cases h
    exact ⟨target, .inr ⟨faults, rfl⟩, Diagnostic.shows_decodeFailed ..⟩
  | raised x => cases h

/-- A model with octets that are no text. -/
def blob : Value := .record .model "Blob" [("data", .octets .fixed [0xff])]

/-- A model with a set as a key. -/
def holder : Value :=
  .record .model "Holder" [("payload", .dict [(.sequence .frozenSet [], .int 1)])]

/-- What the model raises when it dumps itself. -/
def setAsKey : Raised := ⟨"TypeError", "\x60frozenset\x60 not valid as object key"⟩

end WorkflowClient.Payload
