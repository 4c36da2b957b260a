import Mathlib.Tactic.IntervalCases
import WorkflowClient.Number.Layout
import WorkflowClient.Number.Reading

/-! Decimal digits of naturals and the naturals they stand for. -/
namespace WorkflowClient.Number

variable {n k : Nat} {c : Char} {ds rest : List Char}

@[simp] theorem value_natText (n : Nat) : value (natText n) = n := Nat.ofDigitChars_ten_toDigits

theorem natText_ne_nil (n : Nat) : natText n ≠ [] := Nat.toDigits_ne_nil

theorem ne_of_isDigit {d : Char} (h : d.isDigit = true) (hc : c.isDigit = false) : c ≠ d := by
  rintro rfl
  simp [h] at hc

theorem isDigit_of_mem_natText (h : c ∈ natText n) : c.isDigit = true :=
  Nat.isDigit_of_mem_toDigits (by decide) (by decide) h

theorem natText_eq_cons (n : Nat) : ∃ d more, natText n = d :: more ∧ d.isDigit = true := by
  cases hd : natText n with
  | nil => exact absurd hd (natText_ne_nil n)
  | cons d more => exact ⟨d, more, rfl, isDigit_of_mem_natText (hd ▸ List.mem_cons_self)⟩

theorem length_natText_le_iff (hk : 0 < k) : (natText n).length ≤ k ↔ n < 10 ^ k :=
  Nat.length_toDigits_le_iff (by decide) hk

theorem length_natText_le (n k : Nat) (hk : 0 < k) (h : n < 10 ^ k) : (natText n).length ≤ k :=
  (length_natText_le_iff hk).mpr h

theorem digitChar_ne_zero (h : n < 10) (h0 : n ≠ 0) : n.digitChar ≠ '0' := by
  interval_cases n <;> first | exact absurd rfl h0 | decide

theorem exists_digitChar (h : c.isDigit = true) : ∃ d < 10, c = Nat.digitChar d := by
  have hbounds : 48 ≤ c.toNat ∧ c.toNat ≤ 57 := by
    simpa [Char.isDigit, Char.le_def, UInt32.le_iff_toNat_le] using h
  obtain ⟨hl, hu⟩ := hbounds
  have hc := (Char.ofNat_toNat c).symm
  generalize c.toNat = n at hl hu hc
  refine ⟨n - 48, by omega, ?_⟩
  subst hc
  interval_cases n <;> decide

/-- Only zero is written with a zero in front. -/
theorem head?_natText_ne_zero (h : n ≠ 0) : (natText n).head? ≠ some '0' := by
  induction n using Nat.strong_induction_on with
  | _ n ih =>
    unfold natText
    by_cases hn : n < 10
    · rw [Nat.toDigits_of_lt_base hn]
      simpa using digitChar_ne_zero hn h
    · rw [Nat.toDigits_of_base_le (by decide) (by omega)]
      have hq := ih (n / 10) (by omega) (by omega)
      unfold natText at hq
      cases hd : Nat.toDigits 10 (n / 10) with
      | nil => exact absurd hd Nat.toDigits_ne_nil
      | cons d more => simpa [hd] using hq

/-- No digit follows. -/
def EndsDigits (rest : List Char) : Prop := ∀ c ∈ rest.head?, c.isDigit = false

theorem endsDigits_nil : EndsDigits [] := fun _ h => by cases h

theorem endsDigits_cons (h : c.isDigit = false) : EndsDigits (c :: rest) := by
  intro d hd
  cases hd
  exact h

theorem isDigit_replicate_zero (k : Nat) : ∀ c ∈ List.replicate k '0', c.isDigit = true := by
  intro c hc
  rw [List.eq_of_mem_replicate hc]
  decide

theorem isDigit_append (hd : ∀ c ∈ ds, c.isDigit = true) (hr : ∀ c ∈ rest, c.isDigit = true) :
    ∀ c ∈ ds ++ rest, c.isDigit = true := by
  intro c hc
  rcases List.mem_append.mp hc with h | h
  · exact hd c h
  · exact hr c h

theorem spanDigits_append (hd : ∀ c ∈ ds, c.isDigit = true) (hr : EndsDigits rest) :
    spanDigits (ds ++ rest) = (ds, rest) := by
  have htake : rest.takeWhile Char.isDigit = [] := by
    cases rest with
    | nil => rfl
    | cons c more => simp [hr c rfl]
  have hdrop : rest.dropWhile Char.isDigit = rest := by
    cases rest with
    | nil => rfl
    | cons c more => simp [hr c rfl]
  simp [spanDigits, List.takeWhile_append_of_pos hd, List.dropWhile_append_of_pos hd, htake, hdrop]

theorem spanDigits_natText (hr : EndsDigits rest) :
    spanDigits (natText n ++ rest) = (natText n, rest) :=
  spanDigits_append (fun _ => isDigit_of_mem_natText) hr

/-- So many digits stand for less than that power of ten. -/
theorem value_lt (hd : ∀ c ∈ ds, c.isDigit = true) : value ds < 10 ^ ds.length := by
  unfold value
  induction ds with
  | nil => simp
  | cons c more ih =>
    have hc := hd c (by simp)
    have hm := ih fun d hmem => hd d (List.mem_cons_of_mem _ hmem)
    have hlt : c.toNat - '0'.toNat ≤ 9 := by
      simp only [Char.isDigit, Bool.and_eq_true, decide_eq_true_eq] at hc
      have h9 : c.toNat ≤ 57 := by exact hc.2
      change c.toNat - 48 ≤ 9
      omega
    have hp := Nat.mul_le_mul_left (10 ^ more.length) hlt
    rw [Nat.ofDigitChars_cons, Nat.ofDigitChars_eq_ofDigitChars_zero, List.length_cons,
      Nat.pow_succ, Nat.mul_zero, Nat.zero_add]
    omega

theorem value_zeros_append (k : Nat) (ds : List Char) :
    value (List.replicate k '0' ++ ds) = value ds := by
  induction k with
  | zero => rfl
  | succ k ih => exact ih

theorem writable_iff {z : Int} : writable z = true ↔ z.natAbs < 10 ^ digitLimit := by
  simp only [writable, decide_eq_true_eq, Nat.pow_eq]

theorem length_natText_natAbs_le {z : Int} (h : writable z = true) :
    (natText z.natAbs).length ≤ digitLimit :=
  length_natText_le _ _ (by decide) (writable_iff.mp h)

theorem toString_eq_intText (z : Int) : toString z = String.ofList (intText z) := by
  rw [Int.toString_eq_repr, Int.repr_eq_if, intText]
  by_cases hz : z < 0
  · have hn : (-z).toNat = z.natAbs := by omega
    rw [if_neg (by omega), if_pos hz, hn, Nat.repr_eq_ofList_toDigits]
    exact String.toList_injective (by simp [natText])
  · have hn : z.toNat = z.natAbs := by omega
    rw [if_pos (by omega), if_neg hz, hn, Nat.repr_eq_ofList_toDigits, natText]

theorem signed_true_natAbs {z : Int} (h : z < 0) : signed true z.natAbs = z := by
  rw [signed, if_pos rfl]
  omega

theorem signed_false_natAbs {z : Int} (h : ¬ z < 0) : signed false z.natAbs = z := by
  rw [signed, if_neg Bool.false_ne_true]
  omega

end WorkflowClient.Number
