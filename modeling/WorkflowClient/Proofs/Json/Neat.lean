import WorkflowClient.Proofs.Json.Entries
import WorkflowClient.Proofs.Json.RoundTrip

/-! Data that comes out of values: its integers can be written, and its objects repeat no name. -/
namespace WorkflowClient.Json
open Number

/-- The data itself, or what stands somewhere in it. -/
inductive Part (p : Json) : Json → Prop
  | self : Part p p
  | item {items : List Json} {j : Json} (hj : j ∈ items) (hp : Part p j) : Part p (.array items)
  | member {members : List (String × Json)} {m : String × Json} (hm : m ∈ members)
      (hp : Part p m.2) : Part p (.object members)

inductive Neat : Json → Prop
  | null : Neat .null
  | bool (b : Bool) : Neat (.bool b)
  | int {n : Int} (h : writable n = true) : Neat (.int n)
  | float (x : Double) : Neat (.float x)
  | str (s : String) : Neat (.str s)
  | array {items : List Json} (h : ∀ j ∈ items, Neat j) : Neat (.array items)
  | object {members : List (String × Json)} (hn : (members.map (·.1)).Nodup)
      (h : ∀ m ∈ members, Neat m.2) : Neat (.object members)

variable {j : Json} {x : Double}

theorem isFinite_of_part (hp : Part (.float x) j) (h : j.floatsFinite = true) :
    x.isFinite = true := by
  induction hp with
  | self => exact h
  | item hj _ ih => exact ih (floatsFiniteItems_iff.mp h _ hj)
  | member hm _ ih => exact ih (floatsFiniteMembers_iff.mp h _ hm)

theorem Neat.legible (h : Neat j) (hx : ∀ x, Part (.float x) j → x.isFinite = true) :
    Legible j := by
  induction h with
  | null => exact .null
  | bool b => exact .bool b
  | int h => exact .int h
  | float x => exact .float (hx x .self)
  | str s => exact .str s
  | array _ ih => exact .array fun i hi => ih i hi fun x hp => hx x (.item hi hp)
  | object _ _ ih => exact .object fun m hm => ih m hm fun x hp => hx x (.member hm hp)

theorem settleItems_eq_self {items : List Json} (h : ∀ j ∈ items, j.settle = j) :
    settleItems items = items := by
  induction items with
  | nil => rfl
  | cons j rest ih =>
    rw [settleItems, h j (by simp), ih fun i hi => h i (List.mem_cons_of_mem _ hi)]

theorem Neat.settle (h : Neat j) : j.settle = j := by
  induction h with
  | array _ ih => rw [Json.settle, settleItems_eq_self ih]
  | object hn _ ih => exact settle_object hn ih
  | _ => rfl

theorem Neat.settleEntries {members : List (String × Json)} (h : ∀ m ∈ members, Neat m.2) :
    Neat (.object (settleEntries members)) :=
  .object (nodup_settleEntries members) fun m hm => by
    obtain ⟨d, hd, hdm⟩ := mem_settleEntries hm
    exact hdm ▸ h d hd

end WorkflowClient.Json
