import WorkflowClient.Proofs.Payload.Writes
import WorkflowClient.Samples.Orders

/-! Where the two encoders agree: a value is the same data as a field of which nothing is declared as
by itself. -/
namespace WorkflowClient

/-- Values that have one kind of plain data only. The order in which containers and records hold
each other does not matter, and models need only dump themselves. Data records are those that leave
it to others to write them. Days are meant by themselves here, not as the days of points in time. -/
inductive Value.Common (Γ : Catalog) : Value → Prop
  | none : Common Γ .none
  | bool (b : Bool) : Common Γ (.bool b)
  | int (n : Int) : Common Γ (.int n)
  | str (s : String) : Common Γ (.str s)
  | uuid (u : Uuid) : Common Γ (.uuid u)
  | date (d : Calendar.Date) : Common Γ (.date d)
  | textMember (mixin : Mixin) (cls name s : String) : Common Γ (.member mixin cls name (.str s))
  | intMember (mixin : Mixin) (cls name : String) (n : Int) :
      Common Γ (.member mixin cls name (.int n))
  | list {items : List Value} (h : ∀ v ∈ items, Common Γ v) : Common Γ (.sequence .list items)
  | tuple {items : List Value} (h : ∀ v ∈ items, Common Γ v) : Common Γ (.sequence .tuple items)
  | dict {entries : List (Value × Value)} (hk : ∀ e ∈ entries, ∃ k, e.1 = .str k)
      (h : ∀ e ∈ entries, Common Γ e.2) : Common Γ (.dict entries)
  | namedTuple (cls : String) {fields : List (String × Value)} (h : ∀ f ∈ fields, Common Γ f.2) :
      Common Γ (.record .tuple cls fields)
  | data {cls : String} {fields : List (String × Value)} (hown : Γ.dumpsItself cls = false)
      (hnames : Γ.fieldNames cls (fields.map (·.1)) = fields.map (·.1))
      (hn : (fields.map (·.1)).Nodup) (h : ∀ f ∈ fields, Common Γ f.2) :
      Common Γ (.record .data cls fields)
  | model {cls : String} {fields : List (String × Value)} {j : Json}
      (h : Γ.serialize cls fields = .ok j) : Common Γ (.record .model cls fields)

namespace Payload
open Value (Common)

variable {Γ : Catalog} {v : Value} {j : Json}

theorem inferItems_eq_map (items : List Value) : inferItems Γ items = items.map (infer Γ) := by
  induction items with
  | nil => rfl
  | cons v rest ih => rw [inferItems, ih, List.map_cons]

theorem inferEntries_eq_map (entries : List (Value × Value)) :
    inferEntries Γ entries = entries.map fun e => (keyText e.1, infer Γ e.2) := by
  induction entries with
  | nil => rfl
  | cons e rest ih =>
    obtain ⟨k, v⟩ := e
    rw [inferEntries, ih, List.map_cons]

theorem inferFields_eq_map (fields : List (String × Value)) :
    inferFields Γ fields = fields.map fun f => (f.1, infer Γ f.2) := by
  induction fields with
  | nil => rfl
  | cons f rest ih =>
    obtain ⟨n, v⟩ := f
    rw [inferFields, ih, List.map_cons]

/-- Results that are known are put together as they are. -/
theorem sequence_of_forall₂ {α β ε : Type} {f : α → Except ε β} {as : List α} {bs : List β}
    (h : List.Forall₂ (fun a b => f a = .ok b) as bs) : sequence (as.map f) = .ok bs := by
  induction h with
  | nil => rfl
  | cons hb _ ih =>
    rw [List.map_cons, hb, sequence_cons_ok, ih]
    rfl

/-- Data that a value has as a field of which nothing is declared, and by itself. -/
structure Agreed (Γ : Catalog) (v : Value) (j : Json) : Prop where
  inferred : infer Γ v = .ok j
  alone : jsonable Γ v = .ok (.ofJson j)

/-- The two lists of data of the parts of a value are one. -/
theorem agreed_parts {α : Type} {part : α → Value} {as : List α}
    (h : ∀ a ∈ as, ∃ j, Agreed Γ (part a) j) :
    ∃ js, sequence (as.map fun a => infer Γ (part a)) = .ok js ∧
      sequence (as.map fun a => jsonable Γ (part a)) = .ok (js.map .ofJson) := by
  obtain ⟨js, hjs, hall⟩ := sequence_data fun a ha => by
    obtain ⟨j, hj⟩ := h a ha
    exact ⟨j, hj.alone, hj.inferred⟩
  exact ⟨js, sequence_of_forall₂ hall, hjs⟩

/-- And so they are under names. -/
theorem agreed_members {α : Type} {part : α → Value} {as : List α} (name : α → String)
    (h : ∀ a ∈ as, ∃ j, Agreed Γ (part a) j) :
    ∃ ms, sequence (as.map fun a => (infer Γ (part a)).map fun j => (name a, j)) = .ok ms ∧
      sequence (as.map fun a => fieldData Γ (name a, part a)) = .ok (membersOf ms) ∧
      ms.map (·.1) = as.map name := by
  obtain ⟨ms, hms, hall⟩ := sequence_members
    (f := fun a => fieldData Γ (name a, part a))
    (Q := fun a m => (infer Γ (part a)).map (fun j => (name a, j)) = .ok m ∧ m.1 = name a)
    fun a ha => by
      obtain ⟨j, hj⟩ := h a ha
      exact ⟨(name a, j), by rw [fieldData, hj.alone]; rfl, by rw [hj.inferred]; rfl, rfl⟩
  refine ⟨ms, sequence_of_forall₂ (hall.imp fun _ _ hm => hm.1), hms, ?_⟩
  exact (map_eq_of_forall₂ hall fun _ _ hm => hm.2.symm).symm

theorem agreed_sequence {kind : SequenceKind} {items : List Value} (hk : kind ≠ .queue)
    (h : ∀ v ∈ items, ∃ j, Agreed Γ v j) : ∃ j, Agreed Γ (.sequence kind items) j := by
  obtain ⟨js, hinferred, halone⟩ := agreed_parts h
  refine ⟨.array js, ?_, ?_⟩
  · rw [infer.eq_def]
    cases kind with
    | queue => exact absurd rfl hk
    | _ =>
      dsimp only
      rw [inferItems_eq_map, arrayOf, hinferred]
      rfl
  · rw [jsonable, jsonables_eq, halone, Value.ofJson, Value.ofJsonItems_eq_map]
    rfl

theorem agreed_dict {entries : List (Value × Value)} (hk : ∀ e ∈ entries, ∃ k, e.1 = .str k)
    (h : ∀ e ∈ entries, ∃ j, Agreed Γ e.2 j) : ∃ j, Agreed Γ (.dict entries) j := by
  obtain ⟨ms, hinferred, halone, -⟩ := agreed_members (fun e => e.1.text) h
  refine ⟨.object (Json.settleEntries ms), ?_, ?_⟩
  · rw [infer, inferEntries_eq_map, objectOf, List.map_map, ← List.map_congr_left, hinferred]
    · rfl
    · intro e he
      obtain ⟨k, hkey⟩ := hk e he
      rw [Function.comp_apply, hkey]
      cases infer Γ e.2 <;> rfl
  · have hentries : entries.map (entryData Γ) =
        entries.map fun e => fieldData Γ (e.1.text, e.2) := by
      refine List.map_congr_left fun e he => ?_
      obtain ⟨k, hkey⟩ := hk e he
      rw [entryData, hkey]
      rfl
    rw [jsonable, jsonableEntries_eq, hentries, halone, Except.map, settledObject_membersOf]

theorem agreed_data {cls : String} {fields : List (String × Value)}
    (hown : Γ.dumpsItself cls = false)
    (hnames : Γ.fieldNames cls (fields.map (·.1)) = fields.map (·.1))
    (hn : (fields.map (·.1)).Nodup) (h : ∀ f ∈ fields, ∃ j, Agreed Γ f.2 j) :
    ∃ j, Agreed Γ (.record .data cls fields) j := by
  obtain ⟨ms, hinferred, halone, hsame⟩ := agreed_members (·.1) h
  refine ⟨.object ms, ?_, ?_⟩
  · rw [infer, hown, inferFields_eq_map, recordOf, List.map_map, Function.comp_def, hinferred]
    rfl
  · rw [jsonable, hnames, pickFields_own hn, halone, Except.map,
      settledObject_of_nodup (hsame ▸ hn)]

theorem agreed_namedTuple (cls : String) {fields : List (String × Value)}
    (h : ∀ f ∈ fields, ∃ j, Agreed Γ f.2 j) : ∃ j, Agreed Γ (.record .tuple cls fields) j := by
  obtain ⟨js, hinferred, halone⟩ := agreed_parts h
  refine ⟨.array js, ?_, ?_⟩
  · rw [infer, inferFields_eq_map, arrayOf, List.map_map, Function.comp_def, hinferred]
    rfl
  · rw [jsonable, jsonableFields_eq, List.map_map, Function.comp_def, halone, Value.ofJson,
      Value.ofJsonItems_eq_map]
    rfl

/-- Common values have one kind of data. -/
theorem agreed_of_common (hv : Common Γ v) : ∃ j, Agreed Γ v j := by
  induction hv with
  | none | bool | int | str | uuid | date => exact ⟨_, rfl, rfl⟩
  | textMember mixin | intMember mixin => exact ⟨_, rfl, by cases mixin <;> rfl⟩
  | list h ih => exact agreed_sequence (by decide) ih
  | tuple h ih => exact agreed_sequence (by decide) ih
  | dict hk h ih => exact agreed_dict hk ih
  | namedTuple cls h ih => exact agreed_namedTuple cls ih
  | data hown hnames hn h ih => exact agreed_data hown hnames hn ih
  | @model cls fields j h => exact ⟨j, h, by rw [jsonable, h]; rfl⟩

/-- A model of the class dumps its only field, of which nothing is declared, by what it is. -/
def Holds (Γ : Catalog) (cls field : String) (v : Value) : Prop :=
  Γ.serialize cls [(field, v)] = (infer Γ v).map fun j => .object [(field, j)]

/-- A line of an order in a tuple, with the model that says why the order was cancelled. -/
def cancelled : Value :=
  .sequence .tuple [.record .data "OrderLine" [("sku", .str "a"), ("quantity", .int 2)],
    .dict [(.str "why", .record .model "CancelReason" [("code", .str "late"), ("detail", .none)])]]

theorem common_cancelled : Common Samples.Orders.catalog cancelled := by
  have hline : Common Samples.Orders.catalog
      (.record .data "OrderLine" [("sku", .str "a"), ("quantity", .int 2)]) := by
    refine .data rfl rfl (by decide) (List.forall_mem_cons.mpr ⟨.str _, ?_⟩)
    exact List.forall_mem_singleton.mpr (.int _)
  have hreason : Common Samples.Orders.catalog
      (.record .model "CancelReason" [("code", .str "late"), ("detail", .none)]) :=
    .model (j := .object [("code", .str "late"), ("detail", .null)]) rfl
  refine .tuple (List.forall_mem_cons.mpr ⟨hline, List.forall_mem_singleton.mpr (.dict ?_ ?_)⟩)
  · exact List.forall_mem_singleton.mpr ⟨"why", rfl⟩
  · exact List.forall_mem_singleton.mpr hreason

/-- The start of the year, a day with its first time in universal time. -/
def newYear : Calendar.Instant := ⟨⟨2024, 1, 1, by decide⟩, .midnight (some .utc), none⟩

end Payload
end WorkflowClient
