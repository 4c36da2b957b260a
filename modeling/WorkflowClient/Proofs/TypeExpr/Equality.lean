import WorkflowClient.Proofs.TypeExpr.Parts
import WorkflowClient.Proofs.Value.Transitive

/-! Equality of types is transitive, and identity for types that can be written in one way only. -/
namespace WorkflowClient.TypeExpr

theorem sameLiteral_trans {u v w : Value} (huv : sameLiteral u v = true)
    (hvw : sameLiteral v w = true) : sameLiteral u w = true := by
  simp only [sameLiteral, Bool.and_eq_true, beq_iff_eq] at huv hvw ⊢
  exact ⟨huv.1.trans hvw.1, u.equals_trans v w huv.2 hvw.2⟩

theorem sameLiterals_iff {us vs : List Value} : sameLiterals us vs = true ↔
    (∀ u ∈ us, ∃ v ∈ vs, sameLiteral u v = true) ∧ ∀ v ∈ vs, ∃ u ∈ us, sameLiteral u v = true := by
  simp [sameLiterals]

theorem sameLiterals_trans {us vs ws : List Value} (huv : sameLiterals us vs = true)
    (hvw : sameLiterals vs ws = true) : sameLiterals us ws = true := by
  rw [sameLiterals_iff] at huv hvw ⊢
  constructor
  · intro u hu
    obtain ⟨v, hv, huv⟩ := huv.1 u hu
    obtain ⟨w, hw, hvw⟩ := hvw.1 v hv
    exact ⟨w, hw, sameLiteral_trans huv hvw⟩
  · intro w hw
    obtain ⟨v, hv, hvw⟩ := hvw.2 w hw
    obtain ⟨u, hu, huv⟩ := huv.2 v hv
    exact ⟨u, hu, sameLiteral_trans huv hvw⟩

theorem equals_trans (a b c : TypeExpr) (hab : a.equals b = true) (hbc : b.equals c = true) :
    a.equals c = true := by
  induction a using inductParts generalizing b c with
  | applied a h ha ih =>
    obtain ⟨hb, hab⟩ := (equals_of_head ha).mp hab
    obtain ⟨hc, hbc⟩ := (equals_of_head hb).mp hbc
    exact (equals_of_head ha).mpr ⟨hc, forall₂_trans hab hbc ih⟩
  | union s as ih =>
    obtain ⟨t, bs, rfl, hasbs, hbsas⟩ := equals_union.mp hab
    obtain ⟨r, cs, rfl, hbscs, hcsbs⟩ := equals_union.mp hbc
    refine equals_union.mpr ⟨r, cs, rfl, fun a ha => ?_, fun c hc => ?_⟩
    · obtain ⟨b, hb, hab⟩ := hasbs a ha
      obtain ⟨c, hc, hbc⟩ := hbscs b hb
      exact ⟨c, hc, ih a ha b c hab hbc⟩
    · obtain ⟨b, hb, hbc⟩ := hcsbs c hc
      obtain ⟨a, ha, hab⟩ := hbsas b hb
      exact ⟨a, ha, ih a ha b c hab hbc⟩
  | literal vs =>
    obtain ⟨ws, rfl, hvw⟩ := equals_literal.mp hab
    obtain ⟨us, rfl, hwu⟩ := equals_literal.mp hbc
    exact equals_literal.mpr ⟨us, rfl, sameLiterals_trans hvw hwu⟩
  | annotated a ms ih =>
    obtain ⟨b, ns, rfl, hab, hms⟩ := equals_annotated.mp hab
    obtain ⟨c, os, rfl, hbc, hns⟩ := equals_annotated.mp hbc
    exact equals_annotated.mpr
      ⟨c, os, rfl, ih b c hab hbc, Value.equalItems_trans (fun m _ => m.equals_trans) hms hns⟩

mutual

/-- There is no union, literal or annotation in the type: no other type is equal to it. -/
def rigid : TypeExpr → Bool
  | .any | .none | .primitive _ | .named _ => true
  | .list _ a | .set a | .frozenSet a | .tupleOf a | .descriptor a => a.rigid
  | .dict _ k v => k.rigid && v.rigid
  | .tuple as => rigidAll as
  | .union .. | .literal _ | .annotated .. => false

def rigidAll : List TypeExpr → Bool
  | [] => true
  | a :: as => a.rigid && rigidAll as

end

theorem rigidAll_iff {as : List TypeExpr} : rigidAll as = true ↔ ∀ a ∈ as, a.rigid = true := by
  induction as <;> simp_all [rigidAll]

theorem rigid_of_head {a : TypeExpr} {h : Head} (ha : a.head? = some h) :
    a.rigid = true ↔ ∀ b ∈ a.parts, b.rigid = true := by
  cases a <;> cases ha <;> simp [rigid, parts, rigidAll_iff]

theorem eq_of_equals (a b : TypeExpr) (hab : a.equals b = true) (hb : b.rigid = true) : a = b := by
  induction a using inductParts generalizing b with
  | applied a h ha ih =>
    obtain ⟨hhead, hparts⟩ := (equals_of_head ha).mp hab
    refine eq_of_head ha hhead ?_
    rw [← List.forall₂_eq_eq_eq]
    exact forall₂_imp_mem hparts fun x hx y hy hxy =>
      ih x hx y hxy ((rigid_of_head hhead).mp hb y hy)
  | union s as ih =>
    obtain ⟨t, bs, rfl, -⟩ := equals_union.mp hab
    cases hb
  | literal vs =>
    obtain ⟨ws, rfl, -⟩ := equals_literal.mp hab
    cases hb
  | annotated a ms ih =>
    obtain ⟨c, ns, rfl, -⟩ := equals_annotated.mp hab
    cases hb

end WorkflowClient.TypeExpr
