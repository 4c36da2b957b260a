import WorkflowClient.Number.Layout
import WorkflowClient.Proofs.Number.Rounding

/-! The digits that a double is written with lead back to it. -/
namespace WorkflowClient.Number
open Double (nearest)

variable {m count : Nat} {e p : Int} {s : Scientific}

/-- The number that digits and an exponent stand for. -/
def Scientific.amount (s : Scientific) : ℚ := s.digits * 10 ^ s.exponent

/-- The first candidate that reads back, or else the second. -/
def firstReading (m : Nat) (e p : Int) (a b : Nat) : Option Scientific :=
  if Double.ofDecimal false a p = Double.ofScaled false m e then some ⟨a, p⟩
  else if Double.ofDecimal false b p = Double.ofScaled false m e then some ⟨b, p⟩
  else none

theorem firstReading_reads {a b : Nat} (h : firstReading m e p a b = some s) :
    Double.ofDecimal false s.digits s.exponent = Double.ofScaled false m e := by
  unfold firstReading at h
  split at h
  · rename_i hfirst
    cases h
    exact hfirst
  · split at h
    · rename_i hsecond
      cases h
      exact hsecond
    · cases h

theorem exists_firstReading (m : Nat) (e p : Int) :
    ∃ a b, readingBack m e p = firstReading m e p a b := by
  unfold readingBack firstReading
  dsimp only
  split
  · simp only [decide_eq_true_eq]
    exact ⟨_, _, rfl⟩
  · simp only [decide_eq_true_eq]
    exact ⟨_, _, rfl⟩

theorem readingBack_reads (h : readingBack m e p = some s) :
    Double.ofDecimal false s.digits s.exponent = Double.ofScaled false m e := by
  obtain ⟨a, b, hab⟩ := exists_firstReading m e p
  exact firstReading_reads (hab ▸ h)

theorem searchGrids_reads (h : searchGrids m e count p = some s) :
    Double.ofDecimal false s.digits s.exponent = Double.ofScaled false m e := by
  induction count generalizing p with
  | zero => cases h
  | succ count ih =>
    unfold searchGrids at h
    split at h
    · rename_i hback
      cases h
      exact readingBack_reads hback
    · exact ih h

theorem amount_exactDigits (m : Nat) (e : Int) : (exactDigits m e).amount = m * 2 ^ e := by
  have htwo : (2 : ℚ) ≠ 0 := two_ne_zero
  have hpow := Double.zpow_eq_div htwo e
  unfold exactDigits Scientific.amount
  split
  · rename_i he
    have hneg : (-e).toNat = 0 := by omega
    rw [hneg, pow_zero, div_one] at hpow
    rw [hpow]
    push_cast
    norm_num
  · rename_i he
    have hpos : e.toNat = 0 := by omega
    have hten := Double.zpow_eq_div (r := 10) (by norm_num) e
    rw [hpos, pow_zero] at hpow hten
    have hsplit : (10 : ℚ) ^ (-e).toNat = 2 ^ (-e).toNat * 5 ^ (-e).toNat := by
      rw [← mul_pow]
      norm_num
    rw [hpow, hten, hsplit]
    push_cast
    norm_num
    field_simp

/-- What the shortest digits stand for is nearest to the double that they were made of. -/
theorem nearest_shortest (hc : Canonical m e) (negative : Bool) :
    nearest negative (shortest m e).amount = .finite negative m e hc := by
  have hscaled : Double.ofScaled false m e = .finite false m e hc := dif_pos hc
  refine Double.nearest_signed ?_ negative
  unfold shortest
  split
  · rename_i hm
    subst hm
    have he : e = -1074 := by
      rcases hc.2.2.2 with h | h
      · exact absurd h (by decide)
      · exact h
    subst he
    simp [Scientific.amount, nearest, Double.zero]
  · rename_i hm
    dsimp only
    cases hsearch : searchGrids m e 17 (decimalPlace (magnitude m e).1 (magnitude m e).2 - 1) with
    | none =>
      rw [Option.getD_none, amount_exactDigits]
      exact Double.nearest_of_canonical hc hm
    | some s =>
      rw [Option.getD_some, Scientific.amount, ← Double.ofDecimal_eq_nearest,
        searchGrids_reads hsearch, hscaled]

end WorkflowClient.Number
