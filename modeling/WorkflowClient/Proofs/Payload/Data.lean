import WorkflowClient.Proofs.Payload.Writes
import WorkflowClient.Validation.Fault

/-! Plain data as values: the text that is written of it says just this data, unless a number in it has
no text. -/
namespace WorkflowClient.Payload
open Json (Legible)

variable {j : Json}

theorem exists_of_sequence_ok {α β ε : Type} {f : α → Except ε β} {as : List α} {bs : List β}
    (h : sequence (as.map f) = .ok bs) {a : α} (ha : a ∈ as) : ∃ b, f a = .ok b := by
  induction as generalizing bs with
  | nil => cases ha
  | cons x rest ih =>
    rw [List.map_cons] at h
    cases hx : f x with
    | error e =>
      rw [hx] at h
      cases h
    | ok b =>
      rw [hx, sequence_cons_ok] at h
      obtain ⟨more, hmore, -⟩ := Validation.map_eq_ok h
      rcases List.mem_cons.mp ha with rfl | hrest
      · exact ⟨b, hx⟩
      · exact ih hmore hrest

theorem dataOfItems_of_legible {items : List Json}
    (h : ∀ i ∈ items, dataOf (.ofJson i) = .ok i) :
    dataOfItems (items.map .ofJson) = .ok items := by
  induction items with
  | nil => rfl
  | cons i rest ih =>
    obtain ⟨hi, hrest⟩ := List.forall_mem_cons.mp h
    rw [List.map_cons, dataOfItems, hi, ih hrest]
    rfl

theorem dataOfEntries_of_legible {members : List (String × Json)}
    (h : ∀ m ∈ members, dataOf (.ofJson m.2) = .ok m.2) :
    dataOfEntries (members.map fun m => (.str m.1, .ofJson m.2)) = .ok members := by
  induction members with
  | nil => rfl
  | cons m rest ih =>
    obtain ⟨hm, hrest⟩ := List.forall_mem_cons.mp h
    rw [List.map_cons, dataOfEntries, hm, ih hrest]
    rfl

theorem dataOf_of_legible (h : Legible j) : dataOf (.ofJson j) = .ok j := by
  induction h with
  | null => rfl
  | bool b => rfl
  | int h =>
    rw [Value.ofJson, dataOf, dataOfInt, if_pos h]
    rfl
  | float h => rw [Value.ofJson, dataOf, if_pos h]
  | str s => rfl
  | array _ ih =>
    rw [Value.ofJson, Value.ofJsonItems_eq_map, dataOf, dataOfItems_of_legible ih]
    rfl
  | object _ ih =>
    rw [Value.ofJson, Value.ofJsonMembers_eq_map, dataOf, dataOfEntries_of_legible ih]
    rfl

theorem dataOfItems_eq (items : List Value) : dataOfItems items = sequence (items.map dataOf) := by
  induction items with
  | nil => rfl
  | cons v rest ih =>
    rw [dataOfItems, ih, List.map_cons]
    cases dataOf v with
    | error e => rfl
    | ok j => exact (sequence_cons_ok _ _).symm

theorem dataOfFields_eq (fields : List (String × Value)) :
    dataOfFields fields = sequence (fields.map fun f => dataOf f.2) := by
  induction fields with
  | nil => rfl
  | cons f rest ih =>
    rw [dataOfFields, ih, List.map_cons]
    cases dataOf f.2 with
    | error e => rfl
    | ok j => exact (sequence_cons_ok _ _).symm

/-- What stands in a text for an entry. -/
def memberOf (e : Value × Value) : Except EncodeFault (String × Json) :=
  (keyName e.1).bind fun name => (dataOf e.2).map fun j => (name, j)

theorem dataOfEntries_eq (entries : List (Value × Value)) :
    dataOfEntries entries = sequence (entries.map memberOf) := by
  induction entries with
  | nil => rfl
  | cons e rest ih =>
    rw [dataOfEntries, ih, List.map_cons, memberOf]
    cases keyName e.1 with
    | error e => rfl
    | ok name =>
      cases dataOf e.2 with
      | error e => rfl
      | ok j => exact (sequence_cons_ok _ _).symm

/-- Data that is written is legible. -/
theorem legible_of_dataOf {i : Json} (h : dataOf (.ofJson j) = .ok i) : Legible j := by
  induction j using Json.inductParts generalizing i with
  | null => exact .null
  | bool b => exact .bool b
  | int n =>
    by_cases hw : Number.writable n = true
    · exact .int hw
    · rw [Value.ofJson, dataOf, dataOfInt, if_neg hw] at h
      cases h
  | float x =>
    by_cases hx : x.isFinite = true
    · exact .float hx
    · rw [Value.ofJson, dataOf, if_neg hx] at h
      cases h
  | str s => exact .str s
  | array items ih =>
    rw [Value.ofJson, Value.ofJsonItems_eq_map, dataOf, dataOfItems_eq, List.map_map] at h
    obtain ⟨js, hjs, -⟩ := Validation.map_eq_ok h
    refine .array fun k hk => ?_
    obtain ⟨d, hd⟩ := exists_of_sequence_ok hjs hk
    exact ih k hk hd
  | object members ih =>
    rw [Value.ofJson, Value.ofJsonMembers_eq_map, dataOf, dataOfEntries_eq, List.map_map] at h
    obtain ⟨js, hjs, -⟩ := Validation.map_eq_ok h
    refine .object fun m hm => ?_
    obtain ⟨d, hd⟩ := exists_of_sequence_ok hjs hm
    obtain ⟨k, hk, -⟩ := Validation.map_eq_ok hd
    exact ih m hm hk

/-- Plain data is written as itself, or not at all. -/
theorem dataOf_ofJson_eq_ok {i : Json} : dataOf (.ofJson j) = .ok i ↔ i = j ∧ Legible j := by
  constructor
  · intro h
    have hl : Legible j := legible_of_dataOf h
    rw [dataOf_of_legible hl] at h
    exact ⟨(Except.ok.inj h).symm, hl⟩
  · rintro ⟨rfl, hl⟩
    exact dataOf_of_legible hl

end WorkflowClient.Payload
