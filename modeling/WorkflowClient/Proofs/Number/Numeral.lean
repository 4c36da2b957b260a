import WorkflowClient.Proofs.Number.Exact
import WorkflowClient.Proofs.Number.Reading
import WorkflowClient.Proofs.Number.Shortest

/-! Texts of doubles: digits with a fraction, an exponent or both. -/
namespace WorkflowClient.Number

variable {ds cs : List Char} {c : Char} {lead : Int}

/-- A number written with a point or an exponent, and no needless zero in front. An exponent may
have zeros before its digits. -/
structure Numeral where
  whole : List Char
  fraction : Option (List Char) := none
  exponent : Option (Int × Nat) := none
  whole_digits : ∀ c ∈ whole, c.isDigit = true
  whole_ne_nil : whole ≠ []
  whole_lead : whole.head? = some '0' → whole = ['0']
  fraction_digits : ∀ ds ∈ fraction, ds ≠ [] ∧ ∀ c ∈ ds, c.isDigit = true
  marked : fraction ≠ none ∨ exponent ≠ none

namespace Numeral

def fractionChars (n : Numeral) : List Char := (n.fraction.map ('.' :: ·)).getD []

def exponentChars (n : Numeral) : List Char :=
  (n.exponent.map fun x => 'e' :: signedDigits x.1 x.2).getD []

def chars (n : Numeral) : List Char := n.whole ++ (n.fractionChars ++ n.exponentChars)

def digits (n : Numeral) : List Char := n.whole ++ n.fraction.getD []

/-- The power of ten of the last digit. -/
def scale (n : Numeral) : Int := (n.exponent.map (·.1)).getD 0 - (n.fraction.getD []).length

def amount (n : Numeral) : ℚ := value n.digits * 10 ^ n.scale

theorem chars_eq_cons (n : Numeral) : ∃ d more, n.chars = d :: more ∧ d.isDigit = true := by
  cases hw : n.whole with
  | nil => exact absurd hw n.whole_ne_nil
  | cons d more =>
    refine ⟨d, more ++ (n.fractionChars ++ n.exponentChars), ?_, n.whole_digits d (by simp [hw])⟩
    rw [chars, hw]
    rfl

end Numeral

theorem head?_zero_append {xs ys : List Char} (hne : xs ≠ [])
    (h : (xs ++ ys).head? = some '0') : xs.head? = some '0' := by
  cases xs with
  | nil => exact absurd rfl hne
  | cons x more => exact h

/-- Two powers of ten that differ by zeros at the end of the digits. -/
theorem amount_eq {a b : Nat} {x y : Int} (k : Nat) (hv : a = b * 10 ^ k) (hx : x + k = y) :
    (a : ℚ) * 10 ^ x = b * 10 ^ y := by
  have hten : (10 : ℚ) ≠ 0 := by norm_num
  subst hv hx
  push_cast
  rw [mul_assoc, add_comm, zpow_add₀ hten, zpow_natCast]

/-- The layout that gives every number a point or an exponent writes numerals. -/
theorem write_eq_chars (hd : ∀ c ∈ ds, c.isDigit = true) (hne : ds ≠ [])
    (hz : ds.head? = some '0' → ds = ['0'] ∧ lead = 0) :
    ∃ n : Numeral, standard.write ds lead = n.chars ∧
      n.amount = value ds * 10 ^ (lead + 1 - ds.length) := by
  have hpos : 0 < ds.length := List.length_pos_iff.mpr hne
  unfold Layout.write
  dsimp only
  split
  · split
    · rename_i hlead
      have hf := isDigit_append (isDigit_replicate_zero (-lead - 1).toNat) hd
      refine ⟨{ whole := ['0'], fraction := some (List.replicate (-lead - 1).toNat '0' ++ ds),
                whole_digits := isDigit_replicate_zero 1, whole_ne_nil := by simp,
                whole_lead := fun _ => rfl, fraction_digits := ?_,
                marked := .inl (by simp) }, ?_, ?_⟩
      · rintro fs hfs
        cases hfs
        exact ⟨by simp [hne], hf⟩
      · simp [Numeral.chars, Numeral.fractionChars, Numeral.exponentChars]
      · refine amount_eq 0 ?_ ?_
        · rw [Nat.pow_zero, Nat.mul_one]
          exact (value_zeros_append 1 _).trans (value_zeros_append _ ds)
        · simp [Numeral.scale]
          omega
    · rename_i hlead
      cases hdrop : ds.drop (lead.toNat + 1) with
      | nil =>
        have hlen : ds.length ≤ lead.toNat + 1 := List.drop_eq_nil_iff.mp hdrop
        have htake : ds.take (lead.toNat + 1) = ds := List.take_of_length_le hlen
        have hw := isDigit_append hd (isDigit_replicate_zero (lead.toNat + 1 - ds.length))
        have hzeros : value (ds ++ List.replicate (lead.toNat + 1 - ds.length) '0' ++ ['0']) =
            value ds * 10 ^ (lead.toNat + 1 - ds.length + 1) := by
          rw [List.append_assoc, ← List.replicate_succ', value_append_zeros]
        rw [htake]
        refine ⟨{ whole := ds ++ List.replicate (lead.toNat + 1 - ds.length) '0',
                  fraction := some ['0'], whole_digits := hw, whole_ne_nil := by simp [hne],
                  whole_lead := ?_,
                  fraction_digits := by simp, marked := .inl (by simp) }, ?_, ?_⟩
        · intro h
          obtain ⟨rfl, rfl⟩ := hz (head?_zero_append hne h)
          rfl
        · simp [Numeral.chars, Numeral.fractionChars, Numeral.exponentChars, standard]
        · refine amount_eq _ hzeros ?_
          simp [Numeral.scale]
          omega
      | cons f more =>
        have hlen : lead.toNat + 1 < ds.length := by
          by_contra h
          rw [List.drop_of_length_le (by omega)] at hdrop
          cases hdrop
        have hzero : lead.toNat + 1 - ds.length = 0 := by omega
        have hw : ∀ c ∈ ds.take (lead.toNat + 1), c.isDigit = true :=
          fun c hc => hd c (List.mem_of_mem_take hc)
        have hf : ∀ c ∈ f :: more, c.isDigit = true :=
          fun c hc => hd c (List.mem_of_mem_drop (hdrop ▸ hc))
        have hwne : ds.take (lead.toNat + 1) ≠ [] := by
          cases ds with
          | nil => exact absurd rfl hne
          | cons d rest => simp
        have hsplit : ds.take (lead.toNat + 1) ++ f :: more = ds := by
          rw [← hdrop, List.take_append_drop]
        refine ⟨{ whole := ds.take (lead.toNat + 1), fraction := some (f :: more),
                  whole_digits := hw, whole_ne_nil := hwne, whole_lead := ?_,
                  fraction_digits := ?_, marked := .inl (by simp) }, ?_, ?_⟩
        · intro h
          have hhead : ds.head? = some '0' := by
            rw [← hsplit, List.head?_append_of_ne_nil _ hwne, h]
          obtain ⟨rfl, -⟩ := hz hhead
          exact absurd hlen (by simp)
        · rintro fs hfs
          cases hfs
          exact ⟨by simp, hf⟩
        · simp [Numeral.chars, Numeral.fractionChars, Numeral.exponentChars, hzero]
        · refine amount_eq 0 ?_ ?_
          · rw [Nat.pow_zero, Nat.mul_one]
            exact congrArg value hsplit
          · have hmore := congrArg List.length hdrop
            rw [List.length_drop, List.length_cons] at hmore
            simp [Numeral.scale]
            omega
  · match ds, hne with
    | [d], _ =>
      refine ⟨{ whole := [d], exponent := some (lead, 2 - (natText lead.natAbs).length),
                whole_digits := hd, whole_ne_nil := by simp,
                whole_lead := fun h => by simpa using h, fraction_digits := by simp,
                marked := .inr (by simp) }, rfl, ?_⟩
      refine amount_eq 0 (by simp [Numeral.digits]) ?_
      simp [Numeral.scale]
    | d :: x :: more, _ =>
      have hw : ∀ c ∈ [d], c.isDigit = true := fun c hc => hd c (by simp_all)
      have hf : ∀ c ∈ x :: more, c.isDigit = true := fun c hc => hd c (List.mem_cons_of_mem _ hc)
      refine ⟨{ whole := [d], fraction := some (x :: more),
                exponent := some (lead, 2 - (natText lead.natAbs).length),
                whole_digits := hw, whole_ne_nil := by simp,
                whole_lead := fun h => by simpa using h, fraction_digits := ?_,
                marked := .inl (by simp) }, rfl, ?_⟩
      · rintro fs hfs
        cases hfs
        exact ⟨by simp, hf⟩
      · refine amount_eq 0 (by simp [Numeral.digits]) ?_
        simp [Numeral.scale]

/-- The text of a finite magnitude is a numeral for its shortest digits. -/
theorem magnitude_eq_chars (m : Nat) (e : Int) :
    ∃ n : Numeral, standard.magnitude m e = n.chars ∧ n.amount = (shortest m e).amount := by
  unfold Layout.magnitude Scientific.amount
  generalize shortest m e = s
  dsimp only
  obtain ⟨k, hk⟩ := stripZeros_append (natText s.digits)
  have hlen := congrArg List.length hk
  have hvalue : s.digits = value (stripZeros (natText s.digits)) * 10 ^ k := by
    conv_lhs => rw [← value_natText s.digits, hk, value_append_zeros]
  rw [List.length_append, List.length_replicate] at hlen
  split
  · rename_i hempty
    have hnil : stripZeros (natText s.digits) = [] := List.isEmpty_iff.mp hempty
    have hzero : s.digits = 0 := by
      rw [hnil] at hvalue
      exact hvalue.trans (Nat.zero_mul _)
    have hd : ∀ c ∈ ['0'], c.isDigit = true := isDigit_replicate_zero 1
    obtain ⟨n, hn, ha⟩ := write_eq_chars hd (by simp) fun _ => ⟨rfl, rfl⟩
    refine ⟨n, hn, ha.trans ?_⟩
    have hvalue0 : value ['0'] = 0 := rfl
    rw [hvalue0, hzero]
    simp
  · rename_i hempty
    have hne : stripZeros (natText s.digits) ≠ [] := fun h => hempty (List.isEmpty_iff.mpr h)
    have hd : ∀ c ∈ stripZeros (natText s.digits), c.isDigit = true := by
      intro c hc
      refine isDigit_of_mem_natText (n := s.digits) ?_
      rw [hk]
      exact List.mem_append_left _ hc
    have hz : (stripZeros (natText s.digits)).head? = some '0' → False := by
      intro h
      by_cases hzero : s.digits = 0
      · rw [hzero] at hne
        exact hne rfl
      · refine head?_natText_ne_zero hzero ?_
        rw [hk, List.head?_append_of_ne_nil _ hne, h]
    obtain ⟨n, hn, ha⟩ := write_eq_chars hd hne (fun h => (hz h).elim)
    refine ⟨n, hn, ha.trans (amount_eq k hvalue ?_).symm⟩
    omega

/-- The text of a finite double is a numeral for a number to which the double is nearest. -/
theorem double_eq_chars {m : Nat} {e : Int} (hc : Canonical m e) (negative : Bool) :
    ∃ n : Numeral,
      standard.double (.finite negative m e hc) = (if negative then ['-'] else []) ++ n.chars ∧
      Double.nearest negative n.amount = .finite negative m e hc := by
  obtain ⟨n, hn, ha⟩ := magnitude_eq_chars m e
  refine ⟨n, ?_, ?_⟩
  · rw [Layout.double, hn]
  · rw [ha, nearest_shortest hc]

end WorkflowClient.Number
