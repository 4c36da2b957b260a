import WorkflowClient.Proofs.Number.Numeral

/-! The text of a double names that double again. -/
namespace WorkflowClient.Number

variable {c : Char}

theorem isWhiteSpace_of_isDigit (h : c.isDigit = true) : Text.isWhiteSpace c = false := by
  obtain ⟨d, hd, rfl⟩ := exists_digitChar h
  interval_cases d <;> decide

theorem isWhiteSpace_of_mem_signedDigits {z : Int} {k : Nat} (h : c ∈ signedDigits z k) :
    Text.isWhiteSpace c = false := by
  rcases List.mem_cons.mp h with rfl | h
  · split <;> decide
  · have hd := isDigit_append (isDigit_replicate_zero k)
      (fun d (hd : d ∈ natText z.natAbs) => isDigit_of_mem_natText hd)
    exact isWhiteSpace_of_isDigit (hd c h)

namespace Numeral
variable (n : Numeral)

theorem isWhiteSpace_of_mem (h : c ∈ n.chars) : Text.isWhiteSpace c = false := by
  rcases List.mem_append.mp h with h | h
  · exact isWhiteSpace_of_isDigit (n.whole_digits c h)
  rcases List.mem_append.mp h with h | h
  · unfold fractionChars at h
    cases hf : n.fraction with
    | none => simp [hf] at h
    | some ds =>
      rw [hf] at h
      rcases List.mem_cons.mp h with rfl | h
      · decide
      · exact isWhiteSpace_of_isDigit ((n.fraction_digits ds hf).2 c h)
  · unfold exponentChars at h
    cases he : n.exponent with
    | none => simp [he] at h
    | some x =>
      rw [he] at h
      rcases List.mem_cons.mp h with rfl | h
      · decide
      · exact isWhiteSpace_of_mem_signedDigits h

theorem mantissa?_chars :
    mantissa? n.chars = some (⟨n.digits, (n.fraction.getD []).length⟩, n.exponentChars) := by
  have hends : EndsDigits n.exponentChars := by
    unfold exponentChars
    cases n.exponent with
    | none => exact endsDigits_nil
    | some x => exact endsDigits_cons rfl
  unfold chars digits fractionChars
  cases hf : n.fraction with
  | none =>
    have hdot : n.exponentChars.head? ≠ some '.' := by
      unfold exponentChars
      cases n.exponent <;> simp
    have hread := mantissa?_whole n.whole_digits n.whole_ne_nil hends hdot
    simpa using hread
  | some ds =>
    have hread := mantissa?_fraction n.whole_digits n.whole_ne_nil (n.fraction_digits ds hf).2 hends
    simpa using hread

theorem exponent?_exponentChars :
    exponent? n.exponentChars = some ((n.exponent.map (·.1)).getD 0) := by
  unfold exponentChars
  cases n.exponent with
  | none => rfl
  | some x => exact exponent?_signedDigits (.inl rfl) x.1 x.2

/-- A numeral is no word, as it starts with a digit. -/
theorem map_toLower_ne {first : Char} (h : first.isDigit = false) (more : List Char) :
    n.chars.map Char.toLower ≠ first :: more := by
  obtain ⟨d, rest, hd, hdigit⟩ := n.chars_eq_cons
  obtain ⟨k, hk, rfl⟩ := exists_digitChar hdigit
  have hlower : k.digitChar.toLower = k.digitChar := by interval_cases k <;> decide
  intro heq
  rw [hd, List.map_cons, hlower] at heq
  obtain ⟨rfl, -⟩ := List.cons.inj heq
  rw [hdigit] at h
  cases h

end Numeral

theorem doubleOfPlain?_numeral (n : Numeral) (negative : Bool) :
    doubleOfPlain? ((if negative then ['-'] else []) ++ n.chars) =
      some (Double.nearest negative n.amount) := by
  have hsign : sign ((if negative then ['-'] else []) ++ n.chars) = (negative, n.chars) := by
    cases negative with
    | true => rfl
    | false =>
      obtain ⟨d, more, hd, hdigit⟩ := n.chars_eq_cons
      rw [hd]
      exact sign_digit hdigit more
  have hinf (more : List Char) := n.map_toLower_ne (show 'i'.isDigit = false from rfl) more
  have hnan (more : List Char) := n.map_toLower_ne (show 'n'.isDigit = false from rfl) more
  have hdouble : Double.ofDecimal negative (value n.digits) n.scale =
      Double.nearest negative n.amount := Double.ofDecimal_eq_nearest _ _ _
  unfold doubleOfPlain?
  rw [hsign]
  dsimp only
  rw [if_neg (by simp [hinf]), if_neg (hnan _), n.mantissa?_chars]
  dsimp only
  rw [n.exponent?_exponentChars, ← hdouble]
  rfl

/-- Every double is what its text names, the NaN and the infinities too. -/
theorem double?_text (x : Double) : double? x.text.toList = some x := by
  rw [Double.text, String.toList_ofList]
  cases x with
  | nan => decide
  | infinite s => cases s <;> decide
  | finite negative m e hc =>
    obtain ⟨n, hn, hnearest⟩ := double_eq_chars hc negative
    have hspace : ∀ c ∈ (if negative then ['-'] else []) ++ n.chars,
        Text.isWhiteSpace c = false := by
      intro c hmem
      rcases List.mem_append.mp hmem with h | h
      · cases negative with
        | true =>
          rw [List.mem_singleton.mp h]
          decide
        | false => cases h
      · exact n.isWhiteSpace_of_mem h
    unfold double?
    rw [hn, trim_eq_self hspace]
    dsimp only
    rw [doubleOfPlain?_numeral, hnearest]

end WorkflowClient.Number
