import WorkflowClient.Proofs.Payload.Failures
import WorkflowClient.Samples.Orders

/-! Encoding as a walk through a value: it stops at the first object that has no plain data, and
what it makes is a normal form. -/
namespace WorkflowClient

namespace Value

/-- Whether the walk goes on where it meets the object; of models nothing is said. -/
def isSupported : Value → Bool
  | .none | .bool _ | .int _ | .float _ | .str _ | .date _ | .instant _ | .clock _ | .uuid _
  | .decimal _ | .member .. => true
  | .sequence .. | .range .. | .octets .view _ | .dict _ | .record .data .. | .record .tuple .. =>
    true
  | _ => false

/-- The first object of those met that stops the walk. -/
def firstUnsupported? (met : List Value) : Option Value := met.find? fun u => !u.isSupported

theorem firstUnsupported?_cons {v : Value} (h : v.isSupported = true) (met : List Value) :
    firstUnsupported? (v :: met) = firstUnsupported? met := by
  simp [firstUnsupported?, h]

theorem firstUnsupported?_append (met more : List Value) :
    firstUnsupported? (met ++ more) = (firstUnsupported? met).or (firstUnsupported? more) :=
  List.find?_append

theorem firstUnsupported?_rangeItems (start stop : Int) :
    firstUnsupported? (rangeItems start stop) = Option.none := by
  simp [firstUnsupported?, rangeItems, isSupported]

theorem firstUnsupported?_octetItems (data : List UInt8) :
    firstUnsupported? (octetItems data) = Option.none := by
  simp [firstUnsupported?, octetItems, isSupported]

theorem firstUnsupported?_flatMap {α : Type} {xs : List α} {met : α → List Value}
    (h : ∀ x ∈ xs, firstUnsupported? (met x) = Option.none) :
    firstUnsupported? (xs.flatMap met) = Option.none := by
  simpa [firstUnsupported?] using h

/-- Plain data has nothing in it that stops the walk. -/
theorem firstUnsupported?_ofJson (j : Json) : firstUnsupported? (ofJson j).walk = Option.none := by
  induction j using Json.inductParts with
  | null | bool | int | float | str => rfl
  | array items ih =>
    rw [ofJson, ofJsonItems_eq_map, walk, walkItems_eq, firstUnsupported?_cons rfl]
    refine firstUnsupported?_flatMap fun v hv => ?_
    obtain ⟨j, hj, rfl⟩ := List.mem_map.mp hv
    exact ih j hj
  | object members ih =>
    rw [ofJson, ofJsonMembers_eq_map, walk, walkEntries_eq, firstUnsupported?_cons rfl]
    refine firstUnsupported?_flatMap fun e he => ?_
    obtain ⟨m, hm, rfl⟩ := List.mem_map.mp he
    exact ih m hm

end Value

/-- If the value is plain data, then its objects are settled. -/
def Value.IsSettled (v : Value) : Prop := ∀ j, v = .ofJson j → j.settle = j

/-- What a member of an enumeration has as its value: plain data, if the member is a text or a number
itself, since it is then encoded to that value as it stands. -/
def Mixin.Holds : Mixin → Value → Prop
  | .plain, _ => True
  | .text, value | .integer, value => ∃ j, value = .ofJson j ∧ j.settle = j

namespace Value

/-- No model stands in the value, every integer in a key of its dicts can be written, and its objects
are as their classes make them: data records have the fields of their classes, and a member of an
enumeration that is a text or a number besides has this, or other plain data, for its value. -/
structure Bare (Γ : Catalog) (v : Value) : Prop where
  modelless : ∀ cls fields, ¬ Part (.record .model cls fields) v
  keys : ∀ entries, Part (.dict entries) v → ∀ e ∈ entries, e.1.writable = true
  fields : ∀ cls fields, Part (.record .data cls fields) v →
    Γ.fieldNames cls (fields.map (·.1)) = fields.map (·.1) ∧ (fields.map (·.1)).Nodup
  members : ∀ mixin cls name value, Part (.member mixin cls name value) v → mixin.Holds value

variable {Γ : Catalog}

theorem Bare.part {v w : Value} (h : v.Bare Γ) (hp : Part w v) : w.Bare Γ where
  modelless cls fields hm := h.modelless cls fields (hm.trans hp)
  keys entries hd := h.keys entries (hd.trans hp)
  fields cls fields hf := h.fields cls fields (hf.trans hp)
  members mixin cls name value hm := h.members mixin cls name value (hm.trans hp)

theorem Bare.membersPlain {v : Value} (h : v.Bare Γ) : v.MembersPlain := by
  intro mixin cls name value hp hne
  have hholds := h.members mixin cls name value hp
  cases mixin with
  | plain => exact absurd rfl hne
  | text | integer =>
    obtain ⟨j, rfl, -⟩ := hholds
    exact ⟨j, rfl⟩

section
variable {Γ : Catalog} {v : Value}

/-- Whether the object, its parts aside, may stand in a bare value. -/
def isBare (Γ : Catalog) : Value → Bool
  | .record .model .. => false
  | .record .data cls fields =>
    let names := fields.map (·.1)
    Γ.fieldNames cls names == names && decide names.Nodup
  | .dict entries => entries.all (·.1.writable)
  | .member .text _ _ value => match value with
    | .str _ => true
    | _ => false
  | .member .integer _ _ value => match value with
    | .int _ => true
    | _ => false
  | _ => true

theorem bare_of_walk (h : v.walk.all (isBare Γ) = true) : v.Bare Γ := by
  have hmet {u : Value} (hp : Part u v) : u.isBare Γ = true :=
    List.all_eq_true.mp h u (mem_walk_of_part hp)
  constructor
  · exact fun cls fields hp => Bool.false_ne_true (hmet hp)
  · exact fun entries hp => List.all_eq_true.mp (hmet hp)
  · intro cls fields hp
    have hboth := Bool.and_eq_true_iff.mp (hmet hp)
    exact ⟨eq_of_beq hboth.1, of_decide_eq_true hboth.2⟩
  · intro mixin cls name value hp
    have hm := hmet hp
    cases mixin with
    | plain => trivial
    | text =>
      cases value with
      | str s => exact ⟨.str s, rfl, rfl⟩
      | _ => cases hm
    | integer =>
      cases value with
      | int n => exact ⟨.int n, rfl, rfl⟩
      | _ => cases hm

end

end Value

namespace Json

theorem settleItems_eq_map (items : List Json) : settleItems items = items.map settle := by
  induction items with
  | nil => rfl
  | cons j rest ih => rw [settleItems, ih, List.map_cons]

end Json

namespace Payload
open Value (Bare Part firstUnsupported?)

variable {Γ : Catalog} {v : Value} {j : Json}

/-- The walk decides what an encoding comes to: the fault of the first object that stops it, or else
a result. -/
def Decides {α : Type} (met : List Value) (r : Except EncodeFault α) : Prop :=
  match firstUnsupported? met with
  | some u => r = .error (.unsupported u.className)
  | none => ∃ a, r = .ok a

theorem Decides.map {α β : Type} {met : List Value} {r : Except EncodeFault α}
    (h : Decides met r) (f : α → β) : Decides met (r.map f) := by
  unfold Decides at h ⊢
  cases hmet : firstUnsupported? met with
  | some u =>
    rw [hmet] at h
    rw [h]
    rfl
  | none =>
    rw [hmet] at h
    obtain ⟨a, ha⟩ := h
    exact ⟨f a, by rw [ha]; rfl⟩

/-- Results are put together up to the first fault, just as the walk goes on up to it. -/
theorem decides_sequence {α β : Type} {xs : List α} {f : α → Except EncodeFault β}
    {met : α → List Value} (h : ∀ x ∈ xs, Decides (met x) (f x)) :
    Decides (xs.flatMap met) (sequence (xs.map f)) := by
  induction xs with
  | nil => exact ⟨[], rfl⟩
  | cons x rest ih =>
    have hx := h x List.mem_cons_self
    have hrest := ih fun y hy => h y (List.mem_cons_of_mem _ hy)
    unfold Decides at hx hrest ⊢
    rw [List.flatMap_cons, Value.firstUnsupported?_append, List.map_cons]
    cases hmet : firstUnsupported? (met x) with
    | some u =>
      rw [hmet] at hx
      rw [hx]
      rfl
    | none =>
      rw [hmet] at hx
      obtain ⟨b, hb⟩ := hx
      rw [hb, sequence_cons_ok, Option.none_or]
      exact Decides.map hrest (b :: ·)

theorem Decides.cons {α : Type} {met : List Value} {r : Except EncodeFault α}
    (hv : v.isSupported = true) (h : Decides met r) : Decides (v :: met) r := by
  unfold Decides at h ⊢
  rwa [Value.firstUnsupported?_cons hv]

theorem decides_leafJson (hv : v.isLeaf = true) : Decides v.walk (leafJson v) := by
  cases v with
  | sequence | dict | record | member => cases hv
  | octets kind data =>
    cases kind with
    | view =>
      refine .cons rfl ?_
      unfold Decides
      rw [Value.firstUnsupported?_octetItems]
      exact ⟨_, rfl⟩
    | _ => rfl
  | range start stop =>
    refine .cons rfl ?_
    unfold Decides
    rw [Value.firstUnsupported?_rangeItems]
    exact ⟨_, rfl⟩
  | span | complex | «instance» => rfl
  | classObject kind name => cases kind <;> rfl
  | _ => exact ⟨_, rfl⟩

theorem decides_jsonable (v : Value) (hv : v.Bare Γ) : Decides v.walk (jsonable Γ v) := by
  induction v using Value.inductParts with
  | sequence kind items ih =>
    rw [jsonable, jsonables_eq, Value.walk, Value.walkItems_eq]
    refine .cons rfl ((decides_sequence fun v hmem => ?_).map _)
    exact ih v hmem (hv.part (.item hmem .self))
  | dict entries _ ih =>
    rw [jsonable, jsonableEntries_eq, Value.walk, Value.walkEntries_eq]
    refine .cons rfl ((decides_sequence fun e hmem => ?_).map _)
    have hname : nameOf e.1 = .ok e.1.text := if_pos (hv.keys entries .self e hmem)
    rw [entryData, hname]
    exact (ih e hmem (hv.part (.entry hmem .self))).map _
  | record kind cls fields ih =>
    have hfield (f) (hmem : f ∈ fields) : Decides f.2.walk (jsonable Γ f.2) :=
      ih f hmem (hv.part (.field hmem .self))
    rw [Value.walk, Value.walkFields_eq]
    cases kind with
    | model => exact absurd .self (hv.modelless cls fields)
    | data =>
      obtain ⟨hnames, hdistinct⟩ := hv.fields cls fields .self
      rw [jsonable, hnames, pickFields_own hdistinct]
      exact .cons rfl ((decides_sequence fun f hmem => (hfield f hmem).map _).map _)
    | tuple =>
      rw [jsonable, jsonableFields_eq, List.map_map]
      exact .cons rfl ((decides_sequence hfield).map _)
  | member mixin cls name value ih =>
    have hholds := hv.members mixin cls name value .self
    cases mixin with
    | plain => exact .cons rfl (ih (hv.part (.member .self)))
    | text | integer =>
      obtain ⟨j, rfl, -⟩ := hholds
      refine .cons rfl ?_
      unfold Decides
      rw [Value.firstUnsupported?_ofJson]
      exact ⟨_, rfl⟩
  | leaf v hleaf =>
    rw [jsonable_leaf hleaf]
    exact (decides_leafJson hleaf).map _

theorem jsonables_ofJsonItems {items : List Json}
    (h : ∀ j ∈ items, jsonable Γ (.ofJson j) = .ok (.ofJson j.settle)) :
    jsonables Γ (items.map .ofJson) = .ok ((Json.settleItems items).map .ofJson) := by
  induction items with
  | nil => rfl
  | cons j rest ih =>
    obtain ⟨hj, hrest⟩ := List.forall_mem_cons.mp h
    rw [List.map_cons, jsonables, hj, ih hrest]
    rfl

theorem jsonableEntries_ofJsonMembers {members : List (String × Json)}
    (h : ∀ m ∈ members, jsonable Γ (.ofJson m.2) = .ok (.ofJson m.2.settle)) :
    jsonableEntries Γ (members.map fun m => (.str m.1, .ofJson m.2)) =
      .ok (membersOf (Json.settleMembers members)) := by
  induction members with
  | nil => rfl
  | cons m rest ih =>
    obtain ⟨hm, hrest⟩ := List.forall_mem_cons.mp h
    have hname : nameOf (.str m.1) = .ok m.1 := rfl
    rw [List.map_cons, jsonableEntries, hname, hm, ih hrest]
    rfl

/-- Plain data is encoded to itself, with every object settled. -/
theorem jsonable_ofJson (Γ : Catalog) (j : Json) :
    jsonable Γ (.ofJson j) = .ok (.ofJson j.settle) := by
  induction j using Json.inductParts with
  | null | bool | int | float | str => rfl
  | array items ih =>
    rw [Value.ofJson, Value.ofJsonItems_eq_map, jsonable, jsonables_ofJsonItems ih, Json.settle,
      Value.ofJson, Value.ofJsonItems_eq_map]
    rfl
  | object members ih =>
    rw [Value.ofJson, Value.ofJsonMembers_eq_map, jsonable, jsonableEntries_ofJsonMembers ih,
      Except.map, settledObject_membersOf, Json.settle]

/-- What is made without a model is settled. -/
theorem settle_of_leafJson (h : leafJson v = .ok j) : j.settle = j := by
  unfold leafJson at h
  split at h <;> cases h <;> try rfl
  · rw [Json.settle, Json.settleItems_eq_map, List.map_map]
    rfl
  · rw [Json.settle, Json.settleItems_eq_map, List.map_map]
    rfl

theorem isSettled_ofJson (h : j.settle = j) : (Value.ofJson j).IsSettled := by
  intro i hi
  rw [← ofJson_injective hi]
  exact h

theorem isSettled_list {ws : List Value} (h : ∀ w ∈ ws, w.IsSettled) :
    (Value.sequence .list ws).IsSettled := by
  intro j hj
  cases j with
  | array js =>
    simp only [Value.ofJson, Value.ofJsonItems_eq_map, Value.sequence.injEq, true_and] at hj
    subst hj
    refine congrArg Json.array (Json.settleItems_eq_self fun i hi => ?_)
    exact h _ (List.mem_map_of_mem hi) i rfl
  | _ => cases hj

theorem isSettled_object {ms : List (String × Value)} (h : ∀ m ∈ ms, m.2.IsSettled) :
    (settledObject ms).IsSettled := by
  intro j hj
  cases j with
  | object js =>
    rw [← objectValue_membersOf] at hj
    have hms : Json.settleEntries ms = membersOf js := objectValue_injective hj
    have hnames : (js.map (·.1)).Nodup := by
      have hnodup := Json.nodup_settleEntries ms
      rwa [hms, membersOf, List.map_map] at hnodup
    refine Json.settle_object hnames fun m hm => ?_
    have hmem : (m.1, Value.ofJson m.2) ∈ Json.settleEntries ms := by
      rw [hms]
      exact List.mem_map_of_mem hm
    obtain ⟨d, hd, heq⟩ := Json.mem_settleEntries hmem
    exact h d hd m.2 heq
  | _ => cases hj

theorem isSettled_member {mixin : Mixin} {value : Value} (h : mixin.Holds value)
    (hne : mixin ≠ .plain) : value.IsSettled := by
  cases mixin with
  | plain => exact absurd rfl hne
  | text | integer =>
    obtain ⟨j, rfl, hj⟩ := h
    exact isSettled_ofJson hj

theorem settle_of_jsonable (v : Value) (hv : v.Bare Γ) (h : jsonable Γ v = .ok (.ofJson j)) :
    j.settle = j := by
  have hk : HandedOn Γ (Value.Bare Γ) Value.IsSettled :=
    { part := fun h hp => h.part hp
      list := isSettled_list
      object := isSettled_object
      model := fun h _ => absurd .self (h.modelless _ _)
      member := fun h hne => isSettled_member (h.members _ _ _ _ .self) hne
      leaf := fun _ hj => isSettled_ofJson (settle_of_leafJson hj) }
  exact hk.jsonable v hv h j rfl

/-- A point of a deck, after a color that is a tuple, with its second coordinate open. -/
def deck (y : Value) : Value :=
  .dict [(.str "colors", .sequence .queue
      [.member .plain "Color" "BLUE" (.sequence .tuple [.int 1, .int 2])]),
    (.int 7, .record .tuple "Point" [("x", .octets .view [9]), ("y", y)])]

theorem bare_deck {y : Value} (h : y = .span 0 ∨ y = .int 3) :
    (deck y).Bare Samples.Orders.catalog :=
  Value.bare_of_walk (by rcases h with rfl | rfl <;> decide +kernel)

end Payload
end WorkflowClient
