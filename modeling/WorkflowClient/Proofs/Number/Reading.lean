import Mathlib.Data.List.TakeWhile
import WorkflowClient.Proofs.Number.Digits

/-! The parts of numbers are read back from their texts, and integers whole. -/
namespace WorkflowClient.Number

variable {whole fraction rest ds cs : List Char} {c : Char}

theorem dropWhile_eq_self {p : Char → Bool} (h : ∀ c ∈ cs, p c = false) : cs.dropWhile p = cs := by
  cases cs with
  | nil => rfl
  | cons c rest => exact List.dropWhile_cons_of_neg (by simp [h c])

theorem trim_eq_self {p : Char → Bool} (h : ∀ c ∈ cs, p c = false) : Text.trim p cs = cs := by
  rw [Text.trim, dropWhile_eq_self h, dropWhile_eq_self fun c hc => h c (List.mem_reverse.mp hc),
    List.reverse_reverse]

theorem sign_digit {d : Char} (h : d.isDigit = true) (more : List Char) :
    sign (d :: more) = (false, d :: more) := by
  unfold sign
  split
  · rename_i heq
    cases heq
    cases h
  · rename_i heq
    cases heq
    cases h
  · rfl

theorem mantissa?_whole (hw : ∀ c ∈ whole, c.isDigit = true) (hne : whole ≠ [])
    (hr : EndsDigits rest) (hdot : rest.head? ≠ some '.') :
    mantissa? (whole ++ rest) = some (⟨whole, 0⟩, rest) := by
  unfold mantissa?
  rw [spanDigits_append hw hr]
  dsimp only
  split
  · exact absurd rfl hdot
  · simp [hne]

theorem mantissa?_fraction (hw : ∀ c ∈ whole, c.isDigit = true) (hne : whole ≠ [])
    (hf : ∀ c ∈ fraction, c.isDigit = true) (hr : EndsDigits rest) :
    mantissa? (whole ++ '.' :: (fraction ++ rest)) =
      some (⟨whole ++ fraction, fraction.length⟩, rest) := by
  have hdot : EndsDigits ('.' :: (fraction ++ rest)) := endsDigits_cons rfl
  unfold mantissa?
  rw [spanDigits_append hw hdot]
  simp [spanDigits_append hf hr, hne]

/-- What the exponent `n` is written as, in digits with zeros before them. -/
def signedDigits (n : Int) (k : Nat) : List Char :=
  (if n < 0 then '-' else '+') :: (List.replicate k '0' ++ natText n.natAbs)

theorem exponent?_signedDigits (hc : c = 'e' ∨ c = 'E') (n : Int) (k : Nat) :
    exponent? (c :: signedDigits n k) = some n := by
  have hdigits : (List.replicate k '0' ++ natText n.natAbs).all Char.isDigit = true :=
    List.all_eq_true.mpr
      (isDigit_append (isDigit_replicate_zero k) fun _ => isDigit_of_mem_natText)
  have hne : List.replicate k '0' ++ natText n.natAbs ≠ [] := by
    intro h
    exact natText_ne_nil _ (List.append_eq_nil_iff.mp h).2
  have hmark : (c = 'e' || c = 'E') = true := by simpa using hc
  by_cases hn : n < 0
  · simp only [exponent?, hmark, signedDigits, hn, if_true, sign]
    simp [hdigits, hne, value_zeros_append, signed_true_natAbs hn]
  · simp only [exponent?, hmark, signedDigits, hn, if_true, if_false, sign]
    simp [hdigits, hne, value_zeros_append, signed_false_natAbs hn]

/-- A text without underscores has none to drop. -/
theorem withoutUnderscores_go_eq (h : ∀ c ∈ cs, c ≠ '_') (mayFollow : Bool)
    (hne : mayFollow = true ∨ cs ≠ []) : withoutUnderscores.go mayFollow cs = some cs := by
  induction cs generalizing mayFollow with
  | nil => simp_all [withoutUnderscores.go]
  | cons c rest ih =>
    have hrest := ih (fun d hd => h d (List.mem_cons_of_mem _ hd)) true (.inl rfl)
    have hc : c ≠ '_' := h c (by simp)
    unfold withoutUnderscores.go
    split
    · simp_all
    · simp_all
    · simp_all

/-- Digits are read as the integer that they and the sign before them stand for. -/
theorem integer_digits {negative : Bool} (hs : sign cs = (negative, ds))
    (hd : ∀ c ∈ ds, c.isDigit = true) (hne : ds ≠ []) (hl : ds.length ≤ digitLimit) :
    integer cs = .integer (signed negative (value ds)) := by
  have hpoint : ∀ c ∈ ds, decide (c ≠ '.') = true := by
    intro c hc
    simpa using (ne_of_isDigit (hd c hc) rfl).symm
  have hscore : ∀ c ∈ ds, c ≠ '_' := fun c hc => (ne_of_isDigit (hd c hc) rfl).symm
  have hwhole : ds.takeWhile (· ≠ '.') = ds := List.takeWhile_eq_self_iff.mpr hpoint
  have hrest : ds.dropWhile (· ≠ '.') = [] := List.dropWhile_eq_nil_iff.mpr hpoint
  have hall : ds.all Char.isDigit = true := List.all_eq_true.mpr hd
  have hdrop : withoutUnderscores ds = some ds := withoutUnderscores_go_eq hscore false (.inr hne)
  unfold integer
  rw [hs]
  dsimp only
  rw [hwhole, hrest, hdrop]
  simp [hne, hall, Nat.not_lt.mpr hl]

theorem integer_intText {z : Int} (h : writable z = true) : integer (intText z) = .integer z := by
  have hd : ∀ c ∈ natText z.natAbs, c.isDigit = true := fun _ => isDigit_of_mem_natText
  have hl := length_natText_natAbs_le h
  obtain ⟨d, more, hcons, hdigit⟩ := natText_eq_cons z.natAbs
  by_cases hz : z < 0
  · have hsign : sign ('-' :: natText z.natAbs) = (true, natText z.natAbs) := rfl
    rw [intText, if_pos hz, integer_digits hsign hd (natText_ne_nil _) hl, value_natText,
      signed_true_natAbs hz]
  · have hsign : sign (natText z.natAbs) = (false, natText z.natAbs) := by
      rw [hcons, sign_digit hdigit]
    rw [intText, if_neg hz, integer_digits hsign hd (natText_ne_nil _) hl, value_natText,
      signed_false_natAbs hz]

end WorkflowClient.Number
