import WorkflowClient.Proofs.Json.Neat
import WorkflowClient.Proofs.Message.Integers
import WorkflowClient.Proofs.Payload.Writes
import WorkflowClient.Validation.Fault

/-! What values are encoded to is plain data, and neat. -/
namespace WorkflowClient
open Json (Neat)

namespace Value

theorem writableItems_iff {items : List Value} :
    writableItems items = true ↔ ∀ v ∈ items, v.writable = true := by
  induction items <;> simp_all [writableItems]

theorem writableEntries_iff {entries : List (Value × Value)} :
    writableEntries entries = true ↔
      ∀ e ∈ entries, e.1.writable = true ∧ e.2.writable = true := by
  induction entries with
  | nil => simp [writableEntries]
  | cons e rest ih => simp [writableEntries, ih]

theorem writableFields_iff {fields : List (String × Value)} :
    writableFields fields = true ↔ ∀ f ∈ fields, f.2.writable = true := by
  induction fields with
  | nil => simp [writableFields]
  | cons f rest ih => simp [writableFields, ih]

theorem writable_of_part {p v : Value} (hp : Part p v) (h : v.writable = true) :
    p.writable = true := by
  induction hp with
  | self => exact h
  | item hv _ ih => exact ih (writableItems_iff.mp h _ hv)
  | entry he _ ih => exact ih (writableEntries_iff.mp h _ he).2
  | field hf _ ih => exact ih (writableFields_iff.mp h _ hf)
  | member _ ih => exact ih h

/-- Members of enumerations that are texts or numbers besides have plain data as their values. -/
def MembersPlain (v : Value) : Prop :=
  ∀ mixin cls name value, Part (.member mixin cls name value) v → mixin ≠ .plain →
    ∃ j, value = .ofJson j

/-- The integers in the value can be written, no dict repeats a key, and models dump themselves
neatly. -/
structure Tidy (Γ : Catalog) (v : Value) : Prop where
  writable : v.writable = true
  keys : ∀ entries, Part (.dict entries) v → Json.Unrepeated entries
  models : ∀ cls fields j, Part (.record .model cls fields) v →
    Γ.serialize cls fields = .ok j → Neat j

namespace Tidy
variable {Γ : Catalog}

theorem part {v w : Value} (h : v.Tidy Γ) (hp : Part w v) : w.Tidy Γ where
  writable := writable_of_part hp h.writable
  keys entries hd := h.keys entries (hd.trans hp)
  models cls fields j hm := h.models cls fields j (hm.trans hp)

theorem member {mixin : Mixin} {cls name : String} {value : Value}
    (h : (Value.member mixin cls name value).Tidy Γ) : value.Tidy Γ :=
  h.part (.member .self)

end Tidy

/-- If the value is plain data, then this is neat. -/
def IsNeat (v : Value) : Prop := ∀ j, v = .ofJson j → Neat j

theorem isNeat_sequence {kind : SequenceKind} {items : List Value} (h : ∀ v ∈ items, v.IsNeat) :
    (Value.sequence kind items).IsNeat := by
  intro j hj
  cases j with
  | array js =>
    simp only [ofJson, ofJsonItems_eq_map, sequence.injEq] at hj
    refine .array fun i hi => h (.ofJson i) ?_ i rfl
    rw [hj.2]
    exact List.mem_map_of_mem hi
  | _ => cases hj

theorem isNeat_dict {entries : List (Value × Value)} (hu : Json.Unrepeated entries)
    (h : ∀ e ∈ entries, e.2.IsNeat) : (Value.dict entries).IsNeat := by
  intro j hj
  cases j with
  | object ms =>
    simp only [ofJson, ofJsonMembers_eq_map, dict.injEq] at hj
    subst hj
    refine .object (List.pairwise_map.mpr ?_) fun m hm => h _ (List.mem_map_of_mem hm) _ rfl
    refine (List.pairwise_map.mp hu).imp fun {a b} hab heq => ?_
    have hself : (Value.str b.1 == .str b.1) = true := beq_self_eq_true b.1
    rw [heq, hself] at hab
    cases hab
  | _ => cases hj

theorem isNeat_ofJson {j : Json} (h : Neat j) : (Value.ofJson j).IsNeat := by
  intro i hi
  rw [← Payload.ofJson_injective hi]
  exact h

/-- Whatever plain data stands in a tidy value, is neat. -/
theorem Tidy.isNeat {Γ : Catalog} (v : Value) (h : v.Tidy Γ) : v.IsNeat := by
  induction v using inductParts with
  | sequence kind items ih => exact isNeat_sequence fun v hv => ih v hv (h.part (.item hv .self))
  | dict entries _ ih =>
    exact isNeat_dict (h.keys entries .self) fun e he => ih e he (h.part (.entry he .self))
  | record | member =>
    intro j hj
    cases j <;> cases hj
  | leaf v hv =>
    rintro j rfl
    cases j with
    | null => exact .null
    | bool b => exact .bool b
    | int n => exact .int h.writable
    | float x => exact .float x
    | str s => exact .str s
    | array | object => cases hv

end Value

namespace Payload

variable {Γ : Catalog} {v w : Value} {j : Json}

theorem mem_of_sequence_ok {α β ε : Type} {f : α → Except ε β} {as : List α} {bs : List β}
    (h : sequence (as.map f) = .ok bs) {b : β} (hb : b ∈ bs) : ∃ a ∈ as, f a = .ok b := by
  induction as generalizing bs with
  | nil =>
    cases h
    cases hb
  | cons a rest ih =>
    rw [List.map_cons] at h
    cases ha : f a with
    | error e =>
      rw [ha] at h
      cases h
    | ok x =>
      rw [ha, sequence_cons_ok] at h
      obtain ⟨more, hmore, rfl⟩ := Validation.map_eq_ok h
      rcases List.mem_cons.mp hb with rfl | hrest
      · exact ⟨a, List.mem_cons_self, ha⟩
      · obtain ⟨c, hc, hcb⟩ := ih hmore hrest
        exact ⟨c, List.mem_cons_of_mem _ hc, hcb⟩

/-- A field that is handed out is one that the record has. -/
theorem exists_field_of_pickField {cls name : String} {fields : List (String × Value)}
    {m : String × Value} (h : pickField cls (jsonableFields Γ fields) name = .ok m) :
    m.1 = name ∧ ∃ f ∈ fields, jsonable Γ f.2 = .ok m.2 := by
  unfold pickField at h
  split at h
  · cases h
  · rename_i r hr
    obtain ⟨w, hw, rfl⟩ := Validation.map_eq_ok h
    have hmem : (name, r) ∈ jsonableFields Γ fields := by
      obtain ⟨before, after, heq, -⟩ := List.lookup_eq_some_iff.mp hr
      rw [heq]
      exact List.mem_append_right _ List.mem_cons_self
    rw [jsonableFields_eq] at hmem
    obtain ⟨f, hf, hfr⟩ := List.mem_map.mp hmem
    cases hfr
    exact ⟨rfl, f, hf, hw⟩

theorem jsonable_leaf (h : v.isLeaf = true) : jsonable Γ v = (leafJson v).map .ofJson := by
  cases v <;> first | rfl | cases h

/-- A property of what is handed out that holds of the whole if it holds of the parts, where models
dump themselves and some members of enumerations are handed out as their values. -/
structure HandedOn (Γ : Catalog) (asked handed : Value → Prop) : Prop where
  part {v w : Value} : asked v → Value.Part w v → asked w
  list {ws : List Value} : (∀ w ∈ ws, handed w) → handed (.sequence .list ws)
  object {ms : List (String × Value)} : (∀ m ∈ ms, handed m.2) → handed (settledObject ms)
  model {cls : String} {fields : List (String × Value)} {j : Json} :
    asked (.record .model cls fields) → Γ.serialize cls fields = .ok j → handed (.ofJson j)
  member {mixin : Mixin} {cls name : String} {value : Value} :
    asked (.member mixin cls name value) → mixin ≠ .plain → handed value
  leaf {v : Value} {j : Json} : asked v → leafJson v = .ok j → handed (.ofJson j)

/-- What is handed out for a value, by induction over its parts. -/
theorem HandedOn.jsonable {asked handed : Value → Prop} (hk : HandedOn Γ asked handed) (v : Value)
    (hv : asked v) (h : jsonable Γ v = .ok w) : handed w := by
  induction v using Value.inductParts generalizing w with
  | sequence kind items ih =>
    rw [Payload.jsonable, jsonables_eq] at h
    obtain ⟨ws, hws, rfl⟩ := Validation.map_eq_ok h
    refine hk.list fun u hu => ?_
    obtain ⟨v, hmem, hvu⟩ := mem_of_sequence_ok hws hu
    exact ih v hmem (hk.part hv (.item hmem .self)) hvu
  | dict entries _ ih =>
    rw [Payload.jsonable, jsonableEntries_eq] at h
    obtain ⟨ms, hms, rfl⟩ := Validation.map_eq_ok h
    refine hk.object fun m hm => ?_
    obtain ⟨e, he, hem⟩ := mem_of_sequence_ok hms hm
    unfold entryData at hem
    split at hem
    · cases hem
    · obtain ⟨u, hu, rfl⟩ := Validation.map_eq_ok hem
      exact ih e he (hk.part hv (.entry he .self)) hu
  | record kind cls fields ih =>
    cases kind with
    | model =>
      obtain ⟨j, hj, rfl⟩ := Validation.map_eq_ok h
      exact hk.model hv hj
    | data =>
      obtain ⟨ms, hms, rfl⟩ := Validation.map_eq_ok h
      refine hk.object fun m hm => ?_
      obtain ⟨name, -, hname⟩ := mem_of_sequence_ok hms hm
      obtain ⟨-, f, hf, hfm⟩ := exists_field_of_pickField hname
      exact ih f hf (hk.part hv (.field hf .self)) hfm
    | tuple =>
      rw [Payload.jsonable, jsonableFields_eq, List.map_map] at h
      obtain ⟨ws, hws, rfl⟩ := Validation.map_eq_ok h
      refine hk.list fun u hu => ?_
      obtain ⟨f, hf, hfu⟩ := mem_of_sequence_ok hws hu
      exact ih f hf (hk.part hv (.field hf .self)) hfu
  | member mixin cls name value ih =>
    cases mixin with
    | plain => exact ih (hk.part hv (.member .self)) h
    | text | integer =>
      cases h
      exact hk.member hv (by decide)
  | leaf v hleaf =>
    rw [jsonable_leaf hleaf] at h
    obtain ⟨j, hj, rfl⟩ := Validation.map_eq_ok h
    exact hk.leaf hv hj

/-- The integers of a range lie between its bounds, and are no longer than those. -/
theorem writable_range {start stop : Int} (hw : (Value.range start stop).writable = true) {k : Nat}
    (hk : k < (stop - start).toNat) : Number.writable (start + k) = true := by
  simp only [Value.writable, Bool.and_eq_true, Number.writable_iff] at hw ⊢
  omega

theorem neat_leafJson (hw : v.writable = true) (hj : leafJson v = .ok j) : Neat j := by
  unfold leafJson at hj
  split at hj
  · cases hj
    exact .null
  · cases hj
    exact .bool _
  · cases hj
    exact .int hw
  · cases hj
    exact .float _
  · cases hj
    exact .str _
  · cases hj
    refine .array fun i hi => ?_
    obtain ⟨b, -, rfl⟩ := List.mem_map.mp hi
    have hb := b.toNat_lt
    exact .int (Validation.writable_of_lt (by omega))
  · cases hj
    refine .array fun i hi => ?_
    obtain ⟨k, hk, rfl⟩ := List.mem_map.mp hi
    exact .int (writable_range hw (List.mem_range.mp hk))
  · cases hj
    exact .str _
  · cases hj
    exact .str _
  · cases hj
    exact .str _
  · cases hj
    exact .str _
  · cases hj
    exact .str _
  · cases hj

theorem isNeat_settledObject {members : List (String × Value)} (h : ∀ m ∈ members, m.2.IsNeat) :
    (settledObject members).IsNeat := by
  refine Value.isNeat_dict (List.pairwise_map.mpr ?_) (List.forall_mem_map.mpr fun m hm => ?_)
  · exact Json.unrepeated_of_nodup (Json.nodup_settleEntries members)
  · obtain ⟨d, hd, heq⟩ := Json.mem_settleEntries hm
    exact heq ▸ h d hd

/-- Tidy values have neat data. -/
theorem neat_jsonable (v : Value) (hv : v.Tidy Γ) (hj : jsonable Γ v = .ok (.ofJson j)) :
    Neat j := by
  have hk : HandedOn Γ (Value.Tidy Γ) Value.IsNeat :=
    { part := fun h hp => h.part hp
      list := Value.isNeat_sequence
      object := isNeat_settledObject
      model := fun h hj => Value.isNeat_ofJson (h.models _ _ _ .self hj)
      member := fun h _ => h.member.isNeat
      leaf := fun h hj => Value.isNeat_ofJson (neat_leafJson h.writable hj) }
  exact hk.jsonable v hv hj j rfl

theorem exists_array {values : List Value} (h : ∀ v ∈ values, ∃ j, v = .ofJson j) :
    ∃ j, Value.sequence .list values = .ofJson j := by
  have hitems : ∃ js : List Json, values = js.map .ofJson := by
    induction values with
    | nil => exact ⟨[], rfl⟩
    | cons v rest ih =>
      obtain ⟨⟨j, rfl⟩, hrest⟩ := List.forall_mem_cons.mp h
      obtain ⟨js, rfl⟩ := ih hrest
      exact ⟨j :: js, rfl⟩
  obtain ⟨js, rfl⟩ := hitems
  exact ⟨.array js, by rw [Value.ofJson, Value.ofJsonItems_eq_map]⟩

theorem exists_membersOf {members : List (String × Value)}
    (h : ∀ m ∈ members, ∃ j, m.2 = .ofJson j) : ∃ js, members = membersOf js := by
  induction members with
  | nil => exact ⟨[], rfl⟩
  | cons m rest ih =>
    obtain ⟨⟨j, hj⟩, hrest⟩ := List.forall_mem_cons.mp h
    obtain ⟨js, rfl⟩ := ih hrest
    refine ⟨(m.1, j) :: js, ?_⟩
    rw [membersOf, membersOf, List.map_cons, ← hj]

theorem exists_object {members : List (String × Value)}
    (h : ∀ m ∈ members, ∃ j, m.2 = .ofJson j) : ∃ j, settledObject members = .ofJson j := by
  have hplain : ∀ m ∈ Json.settleEntries members, ∃ j, m.2 = .ofJson j := by
    intro m hm
    obtain ⟨d, hd, heq⟩ := Json.mem_settleEntries hm
    exact heq ▸ h d hd
  obtain ⟨js, hjs⟩ := exists_membersOf hplain
  exact ⟨.object js, by rw [settledObject, hjs, objectValue_membersOf]⟩

/-- What is handed out is plain data, but for members of enumerations whose values are none. -/
theorem exists_ofJson (v : Value) (hv : v.MembersPlain) (h : jsonable Γ v = .ok w) :
    ∃ j, w = .ofJson j := by
  have hk : HandedOn Γ Value.MembersPlain fun w => ∃ j, w = .ofJson j :=
    { part := fun h hp mixin cls name value hm => h mixin cls name value (hm.trans hp)
      list := exists_array
      object := exists_object
      model := fun _ _ => ⟨_, rfl⟩
      member := fun h hm => h _ _ _ _ .self hm
      leaf := fun _ _ => ⟨_, rfl⟩ }
  exact hk.jsonable v hv h

end Payload
end WorkflowClient
