import WorkflowClient.Catalog
import WorkflowClient.Proofs.TypeExpr.Equality
import WorkflowClient.Proofs.Value.Symmetric

/-! Equality of types is symmetric, and equal types are checked alike, if at all. -/
namespace WorkflowClient.TypeExpr

mutual

/-- No set or dict among the literals and the metadata in the type holds anything twice. -/
def unrepeating : TypeExpr → Bool
  | .any | .none | .primitive _ | .named _ => true
  | .list _ a | .set a | .frozenSet a | .tupleOf a | .descriptor a => a.unrepeating
  | .dict _ k v => k.unrepeating && v.unrepeating
  | .tuple as | .union _ as => unrepeatingAll as
  | .literal vs => Value.unrepeatingItems vs
  | .annotated a ms => a.unrepeating && Value.unrepeatingItems ms

def unrepeatingAll : List TypeExpr → Bool
  | [] => true
  | a :: as => a.unrepeating && unrepeatingAll as

end

theorem unrepeatingAll_iff {as : List TypeExpr} :
    unrepeatingAll as = true ↔ ∀ a ∈ as, a.unrepeating = true := by
  induction as <;> simp_all [unrepeatingAll]

theorem unrepeating_of_head {a : TypeExpr} {h : Head} (ha : a.head? = some h) :
    a.unrepeating = true ↔ ∀ b ∈ a.parts, b.unrepeating = true := by
  cases a <;> cases ha <;> simp [unrepeating, parts, unrepeatingAll_iff]

theorem sameLiteral_symm {v w : Value} (hv : v.unrepeating = true)
    (h : sameLiteral v w = true) : sameLiteral w v = true := by
  simp only [sameLiteral, Bool.and_eq_true, beq_iff_eq] at h ⊢
  exact ⟨h.1.symm, v.equals_symm hv w h.2⟩

theorem sameLiterals_symm {vs ws : List Value} (hv : Value.unrepeatingItems vs = true)
    (h : sameLiterals vs ws = true) : sameLiterals ws vs = true := by
  rw [Value.unrepeatingItems_iff] at hv
  rw [sameLiterals_iff] at h ⊢
  constructor
  · intro w hw
    obtain ⟨v, hmem, heq⟩ := h.2 w hw
    exact ⟨v, hmem, sameLiteral_symm (hv v hmem) heq⟩
  · intro v hmem
    obtain ⟨w, hw, heq⟩ := h.1 v hmem
    exact ⟨w, hw, sameLiteral_symm (hv v hmem) heq⟩

theorem equals_symm (a b : TypeExpr) (hab : a.equals b = true) (ha : a.unrepeating = true) :
    b.equals a = true := by
  induction a using inductParts generalizing b with
  | applied a h hhead ih =>
    obtain ⟨hb, hparts⟩ := (equals_of_head hhead).mp hab
    refine (equals_of_head hb).mpr ⟨hhead, List.Forall₂.flip ?_⟩
    exact forall₂_imp_mem hparts fun x hx y _ hxy =>
      ih x hx y hxy ((unrepeating_of_head hhead).mp ha x hx)
  | union s as ih =>
    obtain ⟨t, bs, rfl, hasbs, hbsas⟩ := equals_union.mp hab
    have has := unrepeatingAll_iff.mp ha
    refine equals_union.mpr ⟨s, as, rfl, fun b hb => ?_, fun a hmem => ?_⟩
    · obtain ⟨a, hmem, hab⟩ := hbsas b hb
      exact ⟨a, hmem, ih a hmem b hab (has a hmem)⟩
    · obtain ⟨b, hb, hab⟩ := hasbs a hmem
      exact ⟨b, hb, ih a hmem b hab (has a hmem)⟩
  | literal vs =>
    obtain ⟨ws, rfl, hvw⟩ := equals_literal.mp hab
    exact equals_literal.mpr ⟨vs, rfl, sameLiterals_symm ha hvw⟩
  | annotated a ms ih =>
    obtain ⟨b, ns, rfl, hab, hms⟩ := equals_annotated.mp hab
    simp only [unrepeating, Bool.and_eq_true, Value.unrepeatingItems_iff] at ha
    exact equals_annotated.mpr ⟨a, ms, rfl, ih b hab ha.1,
      Value.equalItems_symm (fun m hm => m.equals_symm (ha.2 m hm)) hms⟩

section
variable {Γ : Catalog}

theorem checkableAll_iff {as : List TypeExpr} :
    checkableAll Γ as = true ↔ ∀ a ∈ as, a.checkable Γ = true := by
  induction as <;> simp_all [checkableAll]

/-- Whether what the head makes can be checked, if what it is applied to can. -/
def Head.checkable (Γ : Catalog) : Head → Bool
  | .named cls => Γ.checkable cls
  | .descriptor => false
  | _ => true

theorem checkable_of_head {a : TypeExpr} {h : Head} (ha : a.head? = some h) :
    a.checkable Γ = true ↔ h.checkable Γ = true ∧ ∀ b ∈ a.parts, b.checkable Γ = true := by
  cases a <;> cases ha <;> simp [checkable, Head.checkable, parts, checkableAll_iff]

/-- Where the same types occur in two lists, both can be checked or neither. -/
theorem all_checkable_iff {as bs : List TypeExpr}
    (ih : ∀ a ∈ as, ∀ b : TypeExpr, a.equals b = true → a.checkable Γ = b.checkable Γ)
    (hab : ∀ a ∈ as, ∃ b ∈ bs, a.equals b = true) (hba : ∀ b ∈ bs, ∃ a ∈ as, a.equals b = true) :
    (∀ a ∈ as, a.checkable Γ = true) ↔ ∀ b ∈ bs, b.checkable Γ = true := by
  constructor
  · intro hall b hb
    obtain ⟨a, ha, heq⟩ := hba b hb
    rw [← ih a ha b heq]
    exact hall a ha
  · intro hall a ha
    obtain ⟨b, hb, heq⟩ := hab a ha
    rw [ih a ha b heq]
    exact hall b hb

theorem checkable_eq_of_equals (a b : TypeExpr) (hab : a.equals b = true) :
    a.checkable Γ = b.checkable Γ := by
  induction a using inductParts generalizing b with
  | applied a h ha ih =>
    obtain ⟨hb, hparts⟩ := (equals_of_head ha).mp hab
    rw [Bool.eq_iff_iff, checkable_of_head ha, checkable_of_head hb,
      all_checkable_iff ih (exists_mem_right hparts) (exists_mem_right hparts.flip)]
  | union s as ih =>
    obtain ⟨t, bs, rfl, hasbs, hbsas⟩ := equals_union.mp hab
    rw [Bool.eq_iff_iff]
    change checkableAll Γ as = true ↔ checkableAll Γ bs = true
    rw [checkableAll_iff, checkableAll_iff]
    exact all_checkable_iff ih hasbs hbsas
  | literal vs =>
    obtain ⟨ws, rfl, -⟩ := equals_literal.mp hab
    rfl
  | annotated a ms ih =>
    obtain ⟨c, ns, rfl, hac, -⟩ := equals_annotated.mp hab
    exact ih c hac

end
end WorkflowClient.TypeExpr
