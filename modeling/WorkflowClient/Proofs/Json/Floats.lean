import WorkflowClient.Proofs.Json.Scalars
import WorkflowClient.Proofs.Number.Numeral

/-! Floats of plain data read back from the texts they are written as. -/
namespace WorkflowClient.Json
open Number

variable {rest : List Char} {negative : Bool}

/-- The end of an exponent's digits is the end of the number. -/
theorem exponent_exponentChars (n : Numeral) (hr : Stops rest) :
    exponent (n.exponentChars ++ rest) = (n.exponent.map (·.1), rest) := by
  unfold Numeral.exponentChars
  cases n.exponent with
  | none => exact hr.exponent_eq
  | some x =>
    obtain ⟨z, k⟩ := x
    have hd := isDigit_append (isDigit_replicate_zero k)
      (fun c (hc : c ∈ natText z.natAbs) => isDigit_of_mem_natText hc)
    have hne : List.replicate k '0' ++ natText z.natAbs ≠ [] := by simp [natText_ne_nil]
    have hspan := spanDigits_append hd hr.endsDigits
    have hvalue : value (List.replicate k '0' ++ natText z.natAbs) = z.natAbs := by
      rw [value_zeros_append, value_natText]
    by_cases hz : z < 0
    · simp [exponent, signedDigits, hz, sign, -List.append_assoc, hspan, hne, hvalue,
        signed_true_natAbs hz]
    · simp [exponent, signedDigits, hz, sign, -List.append_assoc, hspan, hne, hvalue,
        signed_false_natAbs hz]

theorem endsDigits_exponentChars (n : Numeral) (hr : Stops rest) :
    EndsDigits (n.exponentChars ++ rest) := by
  unfold Numeral.exponentChars
  cases n.exponent with
  | none => exact hr.endsDigits
  | some x => exact endsDigits_cons rfl

theorem fraction_fractionChars (n : Numeral) (hr : Stops rest) :
    fraction (n.fractionChars ++ (n.exponentChars ++ rest)) =
      (n.fraction, n.exponentChars ++ rest) := by
  have hends := endsDigits_exponentChars n hr
  unfold Numeral.fractionChars
  cases hf : n.fraction with
  | none =>
    cases he : n.exponent with
    | none => simp [Numeral.exponentChars, he, hr.fraction_eq]
    | some x => simp [Numeral.exponentChars, he, fraction]
  | some ds =>
    obtain ⟨hne, hd⟩ := n.fraction_digits ds hf
    simp [fraction, spanDigits_append hd hends, hne]

theorem endsDigits_fractionChars (n : Numeral) (hr : Stops rest) :
    EndsDigits (n.fractionChars ++ (n.exponentChars ++ rest)) := by
  unfold Numeral.fractionChars
  cases n.fraction with
  | none => exact endsDigits_exponentChars n hr
  | some ds => exact endsDigits_cons rfl

theorem readNumber_numeral (n : Numeral) (negative : Bool) (hr : Stops rest) :
    readNumber negative (n.chars ++ rest) =
      .ok (.float (Double.nearest negative n.amount), rest) := by
  have hspan := spanDigits_append n.whole_digits (endsDigits_fractionChars n hr)
  have hdouble : Double.ofDecimal negative (value n.digits) n.scale =
      Double.nearest negative n.amount := Double.ofDecimal_eq_nearest _ _ _
  unfold readNumber
  rw [Numeral.chars, List.append_assoc, List.append_assoc, hspan]
  dsimp only
  cases hw : n.whole with
  | nil => exact absurd hw n.whole_ne_nil
  | cons d more =>
    have hlead : ¬ (d = '0' ∧ (!more.isEmpty) = true) := by
      rintro ⟨rfl, hmore⟩
      have hone := n.whole_lead (by rw [hw]; rfl)
      rw [hw] at hone
      cases hone
      cases hmore
    dsimp only
    rw [if_neg hlead, fraction_fractionChars n hr]
    dsimp only
    rw [exponent_exponentChars n hr]
    dsimp only
    rw [← hdouble, Numeral.digits, Numeral.scale, hw]
    cases hf : n.fraction with
    | some ds => cases he : n.exponent <;> rfl
    | none =>
      cases he : n.exponent with
      | some x => rfl
      | none => exact absurd n.marked (by simp [hf, he])

/-- The text of a finite double: a sign perhaps, then a digit. -/
theorem double_eq_cons {x : Double} (h : x.isFinite = true) :
    ∃ c more, standard.double x = c :: more ∧ (c = '-' ∨ c.isDigit = true) := by
  cases x with
  | nan => cases h
  | infinite s => cases h
  | finite negative m e hc =>
    obtain ⟨n, hn, -⟩ := double_eq_chars hc negative
    obtain ⟨d, more, hd, hdigit⟩ := n.chars_eq_cons
    rw [hn, hd]
    cases negative with
    | true => exact ⟨'-', _, rfl, .inl rfl⟩
    | false => exact ⟨d, _, rfl, .inr hdigit⟩

theorem readScalar_double {x : Double} (h : x.isFinite = true) (hr : Stops rest) :
    readScalar (standard.double x ++ rest) = .ok (.float x, rest) := by
  cases x with
  | nan => cases h
  | infinite s => cases h
  | finite negative m e hc =>
    obtain ⟨n, hn, hnearest⟩ := double_eq_chars hc negative
    have hread := readNumber_numeral n negative hr
    obtain ⟨d, more, hd, hdigit⟩ := n.chars_eq_cons
    rw [hnearest, hd] at hread
    rw [hn, hd]
    cases negative with
    | true =>
      change readScalar ('-' :: d :: (more ++ rest)) = _
      rw [readScalar_minus hdigit]
      exact hread
    | false =>
      change readScalar (d :: (more ++ rest)) = _
      rw [readScalar_digit hdigit]
      exact hread

end WorkflowClient.Json
