import WorkflowClient.Proofs.Matching
import WorkflowClient.TypeExpr.Basic

/-! Types as heads that are applied to other types. Unions, literals and annotated types have no
head; each of them is a kind of its own. -/
namespace WorkflowClient.TypeExpr

/-- What is applied to other types to make a type, to none for a type that is one word. -/
inductive Head
  | any
  | none
  | primitive (p : Primitive)
  | named (cls : String)
  | list (spelling : Spelling)
  | set
  | frozenSet
  | dict (spelling : Spelling)
  | tuple
  | tupleOf
  | descriptor

def head? : TypeExpr → Option Head
  | .any => some .any
  | .none => some .none
  | .primitive p => some (.primitive p)
  | .named cls => some (.named cls)
  | .list s _ => some (.list s)
  | .set _ => some .set
  | .frozenSet _ => some .frozenSet
  | .dict s _ _ => some (.dict s)
  | .tuple _ => some .tuple
  | .tupleOf _ => some .tupleOf
  | .descriptor _ => some .descriptor
  | .union .. | .literal _ | .annotated .. => Option.none

/-- What the head is applied to. -/
def parts : TypeExpr → List TypeExpr
  | .list _ a | .set a | .frozenSet a | .tupleOf a | .descriptor a => [a]
  | .dict _ k v => [k, v]
  | .tuple as => as
  | _ => []

variable {a b : TypeExpr} {as bs : List TypeExpr} {h : Head} {s : Spelling} {vs : List Value}
  {ms : List Value}

theorem sizeOf_part_lt (hb : b ∈ a.parts) : sizeOf b < sizeOf a := by
  cases a with
  | tuple as =>
    have hlt : sizeOf b < sizeOf as := List.sizeOf_lt_of_mem hb
    simp only [tuple.sizeOf_spec]
    omega
  | dict s k v =>
    rcases List.mem_pair.mp hb with rfl | rfl <;> simp only [dict.sizeOf_spec] <;> omega
  | list s c =>
    rw [List.mem_singleton.mp hb]
    simp only [list.sizeOf_spec]
    omega
  | set c | frozenSet c | tupleOf c | descriptor c =>
    rw [List.mem_singleton.mp hb]
    simp
  | _ => cases hb

/-- What holds of a type if it holds of the types in it holds of all types. -/
@[elab_as_elim]
theorem inductParts {P : TypeExpr → Prop}
    (applied : ∀ a h, a.head? = some h → (∀ b ∈ a.parts, P b) → P a)
    (union : ∀ s as, (∀ a ∈ as, P a) → P (.union s as))
    (literal : ∀ vs, P (.literal vs))
    (annotated : ∀ a ms, P a → P (.annotated a ms)) (a : TypeExpr) : P a := by
  have ih (b : TypeExpr) (_ : sizeOf b < sizeOf a) : P b :=
    inductParts applied union literal annotated b
  cases a with
  | union s as =>
    refine union s as fun b hb => ih b ?_
    have hlt := List.sizeOf_lt_of_mem hb
    simp only [TypeExpr.union.sizeOf_spec]
    omega
  | literal vs => exact literal vs
  | annotated b ms =>
    exact annotated b ms (ih b (by simp only [TypeExpr.annotated.sizeOf_spec]; omega))
  | _ => exact applied _ _ rfl fun b hb => ih b (sizeOf_part_lt hb)
termination_by sizeOf a

theorem eq_of_head (ha : a.head? = some h) (hb : b.head? = some h) (hparts : a.parts = b.parts) :
    a = b := by
  cases a <;> cases ha <;> cases b <;> cases hb <;> simp_all [parts]

theorem equalAll_iff :
    equalAll as bs = true ↔ List.Forall₂ (fun a b : TypeExpr => a.equals b = true) as bs := by
  induction as generalizing bs with
  | nil => cases bs <;> simp [equalAll]
  | cons a as ih => cases bs <;> simp [equalAll, ih]

theorem allAmong_iff : allAmong as bs = true ↔ ∀ a ∈ as, ∃ b ∈ bs, a.equals b = true := by
  induction as <;> simp_all [allAmong]

theorem someEquals_iff : someEquals as b = true ↔ ∃ a ∈ as, a.equals b = true := by
  induction as <;> simp_all [someEquals]

/-- Types with a head are compared part by part. -/
theorem equals_of_head (ha : a.head? = some h) : a.equals b = true ↔
    b.head? = some h ∧ List.Forall₂ (fun x y : TypeExpr => x.equals y = true) a.parts b.parts := by
  rw [@eq_comm _ b.head?]
  cases a <;> cases ha <;> cases b <;> simp [equals, head?, parts, equalAll_iff, and_assoc]

theorem equals_union : (TypeExpr.union s as).equals b = true ↔ ∃ t bs, b = .union t bs ∧
    (∀ a ∈ as, ∃ b ∈ bs, a.equals b = true) ∧ ∀ b ∈ bs, ∃ a ∈ as, a.equals b = true := by
  constructor
  · intro h
    cases b <;> simp only [equals, Bool.and_eq_true, Bool.false_eq_true] at h
    rename_i t bs
    simp only [allAmong_iff, List.all_eq_true, someEquals_iff] at h
    exact ⟨t, bs, rfl, h⟩
  · rintro ⟨t, bs, rfl, h⟩
    simpa only [equals, Bool.and_eq_true, allAmong_iff, List.all_eq_true, someEquals_iff] using h

theorem equals_literal : (TypeExpr.literal vs).equals b = true ↔
    ∃ ws, b = .literal ws ∧ sameLiterals vs ws = true := by
  cases b <;> simp [equals]

theorem equals_annotated : (TypeExpr.annotated a ms).equals b = true ↔
    ∃ c ns, b = .annotated c ns ∧ a.equals c = true ∧ Value.equalItems ms ns = true := by
  cases b <;> simp [equals]

end WorkflowClient.TypeExpr
