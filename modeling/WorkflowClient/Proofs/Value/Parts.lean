import WorkflowClient.Value.Basic

/-! The parts of a value: induction over them, and the walk that meets them all. The parts of data are
the parts of its value. -/
namespace WorkflowClient

/-- What holds of data without parts, and of arrays and objects if it holds of what they are made
of, holds of all data. -/
@[elab_as_elim]
theorem Json.inductParts {P : Json → Prop} (null : P .null) (bool : ∀ b, P (.bool b))
    (int : ∀ n, P (.int n)) (float : ∀ x, P (.float x)) (str : ∀ s, P (.str s))
    (array : ∀ items, (∀ j ∈ items, P j) → P (.array items))
    (object : ∀ members, (∀ m ∈ members, P m.2) → P (.object members)) (j : Json) : P j := by
  have ih (i : Json) (_ : sizeOf i < sizeOf j) : P i :=
    inductParts null bool int float str array object i
  cases j with
  | null => exact null
  | bool b => exact bool b
  | int n => exact int n
  | float x => exact float x
  | str s => exact str s
  | array items =>
    refine array items fun i hi => ih i ?_
    have hlt := List.sizeOf_lt_of_mem hi
    simp only [Json.array.sizeOf_spec]
    omega
  | object members =>
    refine object members fun m hm => ih m.2 ?_
    have hlt := List.sizeOf_lt_of_mem hm
    obtain ⟨k, i⟩ := m
    simp only [Json.object.sizeOf_spec, Prod.mk.sizeOf_spec] at hlt ⊢
    omega
termination_by sizeOf j

namespace Value

/-- Values without parts. -/
def isLeaf : Value → Bool
  | .sequence .. | .dict _ | .record .. | .member .. => false
  | _ => true

theorem sizeOf_key_lt {entries : List (Value × Value)} {e : Value × Value} (h : e ∈ entries) :
    sizeOf e.1 < sizeOf (Value.dict entries) := by
  have hlt := List.sizeOf_lt_of_mem h
  obtain ⟨k, v⟩ := e
  simp only [dict.sizeOf_spec, Prod.mk.sizeOf_spec] at hlt ⊢
  omega

theorem sizeOf_entry_lt {entries : List (Value × Value)} {e : Value × Value} (h : e ∈ entries) :
    sizeOf e.2 < sizeOf (Value.dict entries) := by
  have hlt := List.sizeOf_lt_of_mem h
  obtain ⟨k, v⟩ := e
  simp only [dict.sizeOf_spec, Prod.mk.sizeOf_spec] at hlt ⊢
  omega

theorem sizeOf_field_lt {kind : RecordKind} {cls : String} {fields : List (String × Value)}
    {f : String × Value} (h : f ∈ fields) : sizeOf f.2 < sizeOf (Value.record kind cls fields) := by
  have hlt := List.sizeOf_lt_of_mem h
  obtain ⟨n, v⟩ := f
  simp only [record.sizeOf_spec, Prod.mk.sizeOf_spec] at hlt ⊢
  omega

theorem sizeOf_item_lt {kind : SequenceKind} {items : List Value} {v : Value} (h : v ∈ items) :
    sizeOf v < sizeOf (Value.sequence kind items) := by
  have hlt := List.sizeOf_lt_of_mem h
  simp only [sequence.sizeOf_spec]
  omega

/-- What holds of values without parts, and of a value if it holds of its parts, holds of all. -/
@[elab_as_elim]
theorem inductParts {P : Value → Prop}
    (sequence : ∀ kind items, (∀ v ∈ items, P v) → P (.sequence kind items))
    (dict : ∀ entries, (∀ e ∈ entries, P e.1) → (∀ e ∈ entries, P e.2) → P (.dict entries))
    (record : ∀ kind cls fields, (∀ f ∈ fields, P f.2) → P (.record kind cls fields))
    (member : ∀ mixin cls name value, P value → P (.member mixin cls name value))
    (leaf : ∀ v, v.isLeaf = true → P v) (v : Value) : P v := by
  have ih (w : Value) (_ : sizeOf w < sizeOf v) : P w :=
    inductParts sequence dict record member leaf w
  cases v with
  | sequence kind items => exact sequence kind items fun v hv => ih v (sizeOf_item_lt hv)
  | dict entries =>
    exact dict entries (fun e he => ih e.1 (sizeOf_key_lt he))
      fun e he => ih e.2 (sizeOf_entry_lt he)
  | record kind cls fields => exact record kind cls fields fun f hf => ih f.2 (sizeOf_field_lt hf)
  | member mixin cls name value =>
    exact member mixin cls name value (ih value (by simp only [Value.member.sizeOf_spec]; omega))
  | _ => exact leaf _ rfl
termination_by sizeOf v

theorem ofJsonItems_eq_map (js : List Json) : ofJsonItems js = js.map ofJson := by
  induction js with
  | nil => rfl
  | cons j rest ih => rw [ofJsonItems, ih, List.map_cons]

theorem ofJsonMembers_eq_map (members : List (String × Json)) :
    ofJsonMembers members = members.map fun m => (.str m.1, ofJson m.2) := by
  induction members with
  | nil => rfl
  | cons m rest ih =>
    obtain ⟨k, j⟩ := m
    rw [ofJsonMembers, ih, List.map_cons]

/-- The value itself, or what stands somewhere in it. -/
inductive Part (p : Value) : Value → Prop
  | self : Part p p
  | item {kind : SequenceKind} {items : List Value} {v : Value} (hv : v ∈ items) (hp : Part p v) :
      Part p (.sequence kind items)
  | entry {entries : List (Value × Value)} {e : Value × Value} (he : e ∈ entries)
      (hp : Part p e.2) : Part p (.dict entries)
  | field {kind : RecordKind} {cls : String} {fields : List (String × Value)}
      {f : String × Value} (hf : f ∈ fields) (hp : Part p f.2) : Part p (.record kind cls fields)
  | member {mixin : Mixin} {cls name : String} {value : Value} (hp : Part p value) :
      Part p (.member mixin cls name value)

theorem Part.trans {u v w : Value} (huv : Part u v) (hvw : Part v w) : Part u w := by
  induction hvw with
  | self => exact huv
  | item hv _ ih => exact .item hv ih
  | entry he _ ih => exact .entry he ih
  | field hf _ ih => exact .field hf ih
  | member _ ih => exact .member ih

mutual

/-- What is met on the way through a value, from the left and itself first. Keys are passed over. -/
def walk : Value → List Value
  | .sequence kind items => .sequence kind items :: walkItems items
  | .dict entries => .dict entries :: walkEntries entries
  | .record kind cls fields => .record kind cls fields :: walkFields fields
  | .member mixin cls name value => .member mixin cls name value :: value.walk
  | .range start stop => .range start stop :: rangeItems start stop
  | .octets .view data => .octets .view data :: octetItems data
  | v => [v]

def walkItems : List Value → List Value
  | [] => []
  | v :: rest => v.walk ++ walkItems rest

def walkEntries : List (Value × Value) → List Value
  | [] => []
  | (_, v) :: rest => v.walk ++ walkEntries rest

def walkFields : List (String × Value) → List Value
  | [] => []
  | (_, v) :: rest => v.walk ++ walkFields rest

end

theorem walkItems_eq (items : List Value) : walkItems items = items.flatMap walk := by
  induction items with
  | nil => rfl
  | cons v rest ih => rw [walkItems, ih, List.flatMap_cons]

theorem walkEntries_eq (entries : List (Value × Value)) :
    walkEntries entries = entries.flatMap fun e => e.2.walk := by
  induction entries with
  | nil => rfl
  | cons e rest ih => rw [walkEntries, ih, List.flatMap_cons]

theorem walkFields_eq (fields : List (String × Value)) :
    walkFields fields = fields.flatMap fun f => f.2.walk := by
  induction fields with
  | nil => rfl
  | cons f rest ih => rw [walkFields, ih, List.flatMap_cons]

theorem mem_walk_self (v : Value) : v ∈ v.walk := by
  cases v with
  | octets kind data => cases kind <;> exact List.mem_cons_self
  | _ => exact List.mem_cons_self

/-- The walk meets every part. -/
theorem mem_walk_of_part {p v : Value} (h : Part p v) : p ∈ v.walk := by
  induction h with
  | self => exact mem_walk_self p
  | @item kind items v hv _ ih =>
    rw [walk, walkItems_eq]
    exact List.mem_cons_of_mem _ (List.mem_flatMap_of_mem hv ih)
  | @entry entries e he _ ih =>
    rw [walk, walkEntries_eq]
    exact List.mem_cons_of_mem _ (List.mem_flatMap_of_mem he ih)
  | @field kind cls fields f hf _ ih =>
    rw [walk, walkFields_eq]
    exact List.mem_cons_of_mem _ (List.mem_flatMap_of_mem hf ih)
  | member _ ih =>
    rw [walk]
    exact List.mem_cons_of_mem _ ih

end Value
end WorkflowClient
