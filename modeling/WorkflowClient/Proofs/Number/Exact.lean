import WorkflowClient.Number.Decimal
import WorkflowClient.Proofs.Number.Digits

/-! Normal forms stand for the numbers that they were made of. -/
namespace WorkflowClient.Number

variable {ds : List Char} {n m : Nat}

theorem dropWhile_zeros (cs : List Char) :
    ∃ k, cs = List.replicate k '0' ++ cs.dropWhile (· = '0') := by
  induction cs with
  | nil => exact ⟨0, rfl⟩
  | cons c rest ih =>
    obtain ⟨k, hk⟩ := ih
    by_cases hc : c = '0'
    · refine ⟨k + 1, ?_⟩
      subst hc
      rw [List.dropWhile_cons_of_pos (by rfl), List.replicate_succ, List.cons_append, ← hk]
    · refine ⟨0, ?_⟩
      rw [List.dropWhile_cons_of_neg (by simpa using hc)]
      rfl

/-- What is stripped is a row of zeros at the end. -/
theorem stripZeros_append (ds : List Char) : ∃ k, ds = stripZeros ds ++ List.replicate k '0' := by
  obtain ⟨k, hk⟩ := dropWhile_zeros ds.reverse
  refine ⟨k, ?_⟩
  have h := congrArg List.reverse hk
  rwa [List.reverse_reverse, List.reverse_append, List.reverse_replicate] at h

theorem value_append_zeros (ds : List Char) (k : Nat) :
    value (ds ++ List.replicate k '0') = value ds * 10 ^ k := by
  rw [value, Nat.ofDigitChars_append, Nat.ofDigitChars_replicate_zero, value, Nat.mul_comm]

theorem value_stripZeros (ds : List Char) :
    value (stripZeros ds) * 10 ^ (ds.length - (stripZeros ds).length) = value ds := by
  obtain ⟨k, hk⟩ := stripZeros_append ds
  have hlen := congrArg List.length hk
  rw [List.length_append, List.length_replicate] at hlen
  have hsub : ds.length - (stripZeros ds).length = k := by omega
  rw [hsub, ← value_append_zeros, ← hk]

namespace Exact

theorem int?_ofInt (z : Int) : (ofInt z).int? = some z := by
  unfold ofInt normal
  split
  · rename_i hz
    have hz : z = 0 := by omega
    subst hz
    rfl
  · have hv := value_stripZeros (natText z.natAbs)
    rw [value_natText] at hv
    simp only [int?, Int.zero_add, Int.natCast_nonneg, if_true, Int.toNat_natCast, Nat.pow_eq, hv]
    by_cases hz : z < 0
    · simp [hz, signed_true_natAbs hz]
    · simp [hz, signed_false_natAbs hz]

theorem ofInt_inj {a b : Int} (h : ofInt a = ofInt b) : a = b := by
  have h' := congrArg int? h
  rw [int?_ofInt, int?_ofInt] at h'
  exact Option.some.inj h'

end Exact
end WorkflowClient.Number
