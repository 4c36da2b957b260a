import WorkflowClient.Json.Basic
import WorkflowClient.Json.Reader
import WorkflowClient.Proofs.Number.Digits

/-! Strings and integers of plain data read back from the texts they are written as. -/
namespace WorkflowClient.Json
open Number

variable {rest : List Char} {c : Char}

/-- What can follow a value: the end, or what separates or closes. -/
def Stops (rest : List Char) : Prop := ∀ c ∈ rest.head?, c = ',' ∨ c = ']' ∨ c = '}'

theorem stops_nil : Stops [] := by
  intro c hc
  cases hc

theorem stops_cons (h : c = ',' ∨ c = ']' ∨ c = '}') : Stops (c :: rest) := by
  intro d hd
  cases hd
  exact h

theorem Stops.endsDigits (h : Stops rest) : EndsDigits rest := by
  intro c hc
  rcases h c hc with rfl | rfl | rfl <;> decide

theorem Stops.fraction_eq (h : Stops rest) : fraction rest = (none, rest) := by
  cases rest with
  | nil => rfl
  | cons c more => rcases h c rfl with rfl | rfl | rfl <;> rfl

theorem Stops.exponent_eq (h : Stops rest) : exponent rest = (none, rest) := by
  cases rest with
  | nil => rfl
  | cons c more => rcases h c rfl with rfl | rfl | rfl <;> rfl

theorem hexDigits_read : ∀ n < 32, (Text.hex 4 n).length = 4 ∧
    Uuid.readHex 0 (Text.hex 4 n) = some n := by decide

/-- One escaped character is read as that character. -/
theorem stringBody_escape (c : Char) (rest : List Char) :
    stringBody (escape c ++ rest) = (stringBody rest).map fun r => (c :: r.1, r.2) := by
  by_cases h₁ : c = '"'
  · subst h₁; rfl
  by_cases h₂ : c = '\\'
  · subst h₂; rfl
  by_cases h₃ : c = '\n'
  · subst h₃; rfl
  by_cases h₄ : c = '\r'
  · subst h₄; rfl
  by_cases h₅ : c = '\t'
  · subst h₅; rfl
  by_cases h₆ : c = '\x08'
  · subst h₆; rfl
  by_cases h₇ : c = '\x0c'
  · subst h₇; rfl
  by_cases h₈ : c.toNat < 0x20
  · obtain ⟨hlen, hread⟩ := hexDigits_read c.toNat h₈
    simp only [escape, h₁, h₂, h₃, h₄, h₅, h₆, h₇, h₈, if_true, if_false]
    match hx : Text.hex 4 c.toNat, hlen with
    | [x, y, z, w], _ =>
      rw [hx] at hread
      have hvalid : c.toNat.isValidChar := c.valid
      simp [stringBody, unit?, hread, hvalid]
  · simp only [escape, h₁, h₂, h₃, h₄, h₅, h₆, h₇, h₈, if_false, List.cons_append,
      List.nil_append]
    rw [stringBody.eq_def]
    split <;> simp_all

theorem stringBody_chars (cs rest : List Char) :
    stringBody (cs.flatMap escape ++ '"' :: rest) = some (cs, rest) := by
  induction cs with
  | nil => rfl
  | cons c cs ih =>
    rw [List.flatMap_cons, List.append_assoc, stringBody_escape, ih]
    rfl

theorem readString_stringChars (s : String) (rest : List Char) :
    readString (s.toList.flatMap escape ++ '"' :: rest) = .ok (s, rest) := by
  simp [readString, stringBody_chars]

theorem readNumber_natText {n : Nat} (negative : Bool)
    (hn : (natText n).length ≤ digitLimit) (hr : Stops rest) :
    readNumber negative (natText n ++ rest) = .ok (.int (signed negative n), rest) := by
  unfold readNumber
  rw [spanDigits_natText hr.endsDigits]
  have hzero : n ≠ 0 → (natText n).head? ≠ some '0' := head?_natText_ne_zero
  have hval := value_natText n
  cases hd : natText n with
  | nil => exact absurd hd (natText_ne_nil n)
  | cons d more =>
    rw [hd] at hn hval hzero
    have hlead : ¬ (d = '0' ∧ (!more.isEmpty) = true) := by
      rintro ⟨rfl, hmore⟩
      by_cases h0 : n = 0
      · subst h0
        have : ('0' :: more) = ['0'] := hd.symm
        simp_all
      · exact hzero h0 rfl
    simp only [if_neg hlead, hr.fraction_eq, hr.exponent_eq, if_neg (Nat.not_lt.mpr hn), hval]

theorem readWord_digit {d : Char} (h : d.isDigit = true) (cs : List Char) :
    readWord (d :: cs) words = none := by
  have hn : 'n' ≠ d := ne_of_isDigit h rfl
  have ht : 't' ≠ d := ne_of_isDigit h rfl
  have hf : 'f' ≠ d := ne_of_isDigit h rfl
  have hN : 'N' ≠ d := ne_of_isDigit h rfl
  have hI : 'I' ≠ d := ne_of_isDigit h rfl
  have hm : '-' ≠ d := ne_of_isDigit h rfl
  simp [readWord, words, nanWord, infinityWord, hn, ht, hf, hN, hI, hm]

theorem readScalar_digit {d : Char} (h : d.isDigit = true) (cs : List Char) :
    readScalar (d :: cs) = readNumber false (d :: cs) := by
  have hm : d ≠ '-' := (ne_of_isDigit h rfl).symm
  unfold readScalar
  rw [readWord_digit h]
  split <;> simp_all

theorem readScalar_minus {d : Char} (h : d.isDigit = true) (cs : List Char) :
    readScalar ('-' :: d :: cs) = readNumber true (d :: cs) := by
  have hI : 'I' ≠ d := ne_of_isDigit h rfl
  have hword : readWord ('-' :: d :: cs) words = none := by
    simp [readWord, words, nanWord, infinityWord, hI]
  simp [readScalar, hword]

theorem readScalar_intText {z : Int} (hz : writable z = true) (hr : Stops rest) :
    readScalar (intText z ++ rest) = .ok (.int z, rest) := by
  have hlen := length_natText_natAbs_le hz
  obtain ⟨d, more, hd, hdigit⟩ := natText_eq_cons z.natAbs
  unfold intText
  by_cases hneg : z < 0
  · rw [if_pos hneg, List.cons_append, hd, List.cons_append, readScalar_minus hdigit,
      ← List.cons_append, ← hd, readNumber_natText true hlen hr, signed_true_natAbs hneg]
  · rw [if_neg hneg, hd, List.cons_append, readScalar_digit hdigit, ← List.cons_append, ← hd,
      readNumber_natText false hlen hr, signed_false_natAbs hneg]

end WorkflowClient.Json
