import WorkflowClient.Proofs.TypeExpr.Symmetric
import WorkflowClient.Proofs.Value.Hash

/-! Hashing of types: equal types have equal hashes, whatever the hash functions are. -/
namespace WorkflowClient.TypeExpr

/-- Any functions that types, and the values in them, can be hashed with. -/
structure Hasher extends Value.Hasher where
  applied : Head → List Int → Int

section
variable (H : Hasher)

/-- Literals are hashed together with their class. -/
def literalDigest (v : Value) : Int :=
  H.tuple [v.digest H.toHasher, H.applied (.named v.className) []]

mutual

/-- Unions and literals are hashed as sets of their members, each member once. -/
def digest : TypeExpr → Int
  | .any => H.applied .any []
  | .none => H.applied .none []
  | .primitive p => H.applied (.primitive p) []
  | .named cls => H.applied (.named cls) []
  | .list s a => H.applied (.list s) [a.digest]
  | .set a => H.applied .set [a.digest]
  | .frozenSet a => H.applied .frozenSet [a.digest]
  | .dict s k v => H.applied (.dict s) [k.digest, v.digest]
  | .tuple as => H.applied .tuple (digestAll as)
  | .tupleOf a => H.applied .tupleOf [a.digest]
  | .union _ as => H.set (((as.zip (digestAll as)).pwFilter
      fun p q => p.1.equals q.1 = false).map (·.2))
  | .literal vs => H.set ((vs.pwFilter fun v w => sameLiteral v w = false).map (literalDigest H))
  | .annotated a ms => H.tuple [a.digest, H.tuple (ms.map (Value.digest H.toHasher))]
  | .descriptor a => H.applied .descriptor [a.digest]

def digestAll : List TypeExpr → List Int
  | [] => []
  | a :: as => a.digest :: digestAll as

end
end

variable {H : Hasher}

theorem digestAll_eq_map (as : List TypeExpr) : digestAll H as = as.map (digest H) := by
  induction as with
  | nil => rfl
  | cons a as ih => rw [digestAll, ih, List.map_cons]

theorem digest_of_head {a : TypeExpr} {h : Head} (ha : a.head? = some h) :
    a.digest H = H.applied h (a.parts.map (digest H)) := by
  cases a <;> cases ha <;> simp [digest, parts, digestAll_eq_map]

theorem digest_union (s : Spelling) (as : List TypeExpr) : (TypeExpr.union s as).digest H =
    H.set ((as.pwFilter fun a b => a.equals b = false).map (digest H)) := by
  rw [digest, digestAll_eq_map, ← List.map_prod_left_eq_zip, List.pwFilter_map, List.map_map]
  rfl

theorem literalDigest_eq {v w : Value} (hv : v.unrepeating = true)
    (h : sameLiteral v w = true) : literalDigest H v = literalDigest H w := by
  simp only [sameLiteral, Bool.and_eq_true, beq_iff_eq] at h
  rw [literalDigest, literalDigest, h.1, v.digest_eq_of_equals hv w h.2]

/-- In whatever order literals are listed, and however often, they are hashed alike. -/
theorem digest_literal {vs ws : List Value} (hvs : ∀ v ∈ vs, v.unrepeating = true)
    (hws : ∀ w ∈ ws, w.unrepeating = true) (h : sameLiterals vs ws = true) :
    (TypeExpr.literal vs).digest H = (TypeExpr.literal ws).digest H := by
  obtain ⟨hvw, hwv⟩ := sameLiterals_iff.mp h
  rw [digest, digest, Multiset.coe_eq_coe.mpr]
  refine perm_map_pwFilter @sameLiteral_trans ?_ ?_ hvw hwv ?_
  · exact fun v hv w => sameLiteral_symm (hvs v hv)
  · exact fun w hw v => sameLiteral_symm (hws w hw)
  · exact fun v hv w _ => literalDigest_eq (hvs v hv)

/-- Equal types are hashed alike. -/
theorem digest_eq_of_equals (a b : TypeExpr) (hab : a.equals b = true)
    (ha : a.unrepeating = true) (hb : b.unrepeating = true) : a.digest H = b.digest H := by
  induction a using inductParts generalizing b with
  | applied a h hhead ih =>
    obtain ⟨hhead', hparts⟩ := (equals_of_head hhead).mp hab
    rw [unrepeating_of_head hhead] at ha
    rw [unrepeating_of_head hhead'] at hb
    have hdigests := forall₂_imp_mem hparts fun x hx y hy hxy => ih x hx y hxy (ha x hx) (hb y hy)
    rw [digest_of_head hhead, digest_of_head hhead', map_eq_of_forall₂ hdigests fun _ _ h => h]
  | union s as ih =>
    obtain ⟨t, bs, rfl, hasbs, hbsas⟩ := equals_union.mp hab
    have has := unrepeatingAll_iff.mp ha
    have hbs := unrepeatingAll_iff.mp hb
    rw [digest_union, digest_union, Multiset.coe_eq_coe.mpr]
    refine perm_map_pwFilter equals_trans ?_ ?_ hasbs hbsas ?_
    · exact fun a ha b hab => equals_symm a b hab (has a ha)
    · exact fun b hb a hba => equals_symm b a hba (hbs b hb)
    · exact fun a ha b hb hab => ih a ha b hab (has a ha) (hbs b hb)
  | literal vs =>
    obtain ⟨ws, rfl, hvw⟩ := equals_literal.mp hab
    exact digest_literal (Value.unrepeatingItems_iff.mp ha) (Value.unrepeatingItems_iff.mp hb) hvw
  | annotated a ms ih =>
    obtain ⟨b, ns, rfl, hab, hms⟩ := equals_annotated.mp hab
    simp only [unrepeating, Bool.and_eq_true, Value.unrepeatingItems_iff] at ha hb
    rw [digest, digest, ih b hab ha.1 hb.1,
      Value.digests_of_equalItems (fun m hm => m.digest_eq_of_equals (ha.2 m hm)) hms]

end WorkflowClient.TypeExpr
