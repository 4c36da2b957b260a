import WorkflowClient.Http
import WorkflowClient.Proofs.Json.RoundTrip

/-! The bodies of answers: what is written as plain data is read as it, unless an integer in it has
too many digits. -/
namespace WorkflowClient

namespace Text

theorem utf8From_cons_ascii {b : UInt8} (h : b.toNat < 0x80) (rest : List UInt8) :
    utf8From 0 0 0 (b :: rest) = (utf8From 0 0 0 rest).map (Char.ofNat b.toNat :: ·) := if_pos h

theorem utf8Octets_ascii {c : Char} (h : c.toNat < 0x80) : utf8Octets c = [UInt8.ofNat c.toNat] :=
  if_pos h

/-- Nothing but ASCII characters. -/
def ascii (cs : List Char) : Bool := cs.all fun c => c.toNat < 0x80

theorem ascii_cons {c : Char} {cs : List Char} :
    ascii (c :: cs) = true ↔ c.toNat < 0x80 ∧ ascii cs = true := by
  simp [ascii]

theorem ascii_append {cs ds : List Char} :
    ascii (cs ++ ds) = true ↔ ascii cs = true ∧ ascii ds = true := by
  simp [ascii]

/-- ASCII characters are their own octets. -/
theorem utf8From_utf8Octets {cs : List Char} (h : ascii cs = true) :
    utf8From 0 0 0 (cs.flatMap utf8Octets) = some cs := by
  induction cs with
  | nil => rfl
  | cons c rest ih =>
    obtain ⟨hc, hmore⟩ := ascii_cons.mp h
    have hrest := ih hmore
    have hbyte : (UInt8.ofNat c.toNat).toNat = c.toNat :=
      UInt8.toNat_ofNat_of_lt' (Nat.lt_trans hc (by decide))
    have hcons := utf8From_cons_ascii (b := UInt8.ofNat c.toNat) (by rwa [hbyte])
      (rest.flatMap utf8Octets)
    rw [hrest, hbyte, Char.ofNat_toNat] at hcons
    rw [List.flatMap_cons, utf8Octets_ascii hc]
    exact hcons

/-- An object in ASCII is read as it is written. -/
theorem document?_toUtf8 {c d : Char} {more : List Char}
    (h : ascii ('\x7b' :: '"' :: c :: d :: more) = true) :
    document? (toUtf8 (String.ofList ('\x7b' :: '"' :: c :: d :: more))) =
      some (String.ofList ('\x7b' :: '"' :: c :: d :: more)) := by
  have hutf8 : utf8? (('\x7b' :: '"' :: c :: d :: more).flatMap utf8Octets) =
      some (String.ofList ('\x7b' :: '"' :: c :: d :: more)) := by
    rw [utf8?, utf8From_utf8Octets h]
    rfl
  simp only [ascii_cons] at h
  obtain ⟨-, -, hc, hd, -⟩ := h
  rw [← hutf8, toUtf8, String.toList_ofList]
  simp only [List.flatMap_cons, utf8Octets_ascii hc, utf8Octets_ascii hd]
  rfl

end Text

theorem Number.length_natText_pow {k : Nat} (hk : 0 < k) : (natText (10 ^ k)).length = k + 1 := by
  have hle := (length_natText_le_iff (Nat.succ_pos k)).mpr
    (Nat.pow_lt_pow_right (by decide : 1 < 10) (Nat.lt_succ_self k))
  have hlt : ¬ (natText (10 ^ k)).length ≤ k := by
    rw [length_natText_le_iff hk]
    exact Nat.lt_irrefl _
  exact Nat.le_antisymm hle (Nat.lt_of_not_le hlt)

namespace Json
open Number

variable {n fuel : Nat} {depth : Option Nat} {rest : List Char}

theorem readNumber_tooLong (hn : digitLimit < (natText n).length) (hr : Stops rest) :
    readNumber false (natText n ++ rest) = .error (.integerTooLong (natText n).length) := by
  have hne : n ≠ 0 := by
    rintro rfl
    exact absurd hn (by decide)
  have hzero := head?_natText_ne_zero hne
  unfold readNumber
  rw [spanDigits_natText hr.endsDigits]
  cases hd : natText n with
  | nil => exact absurd hd (natText_ne_nil n)
  | cons d more =>
    rw [hd] at hn hzero
    have hlead : ¬ (d = '0' ∧ (!more.isEmpty) = true) := by
      rintro ⟨rfl, -⟩
      exact hzero rfl
    simp only [if_neg hlead, hr.fraction_eq, hr.exponent_eq, if_pos hn]

theorem readValue_tooLong (hn : digitLimit < (natText n).length) (hr : Stops rest) :
    readValue (fuel + 1) depth (natText n ++ rest) =
      .error (.integerTooLong (natText n).length) := by
  obtain ⟨d, more, hd, hdigit⟩ := natText_eq_cons n
  rw [readValue_number ⟨d, more, hd, .inr hdigit⟩, hd, List.cons_append, readScalar_digit hdigit,
    ← List.cons_append, ← hd, readNumber_tooLong hn hr]

/-- A member is not read if its value is such an integer, even if it is not the last one. -/
theorem readMembers_tooLong (name : String) (more : List (String × Json))
    (hn : digitLimit < (natText n).length) :
    readMembers (fuel + 2) depth (memberText name (.int n) more rest) =
      .error (.integerTooLong (natText n).length) := by
  obtain ⟨d, ds, hd, hdigit⟩ := natText_eq_cons n
  have hint : (int n).chars compact = natText n := by
    simp [chars, intText]
  have hskip (cs : List Char) : skipBlanks (natText n ++ cs) = natText n ++ cs := by
    rw [hd, List.cons_append, skipBlanks_cons (isBlank_of_isDigit hdigit)]
  simp only [memberText, readMembers, readString_stringChars, hint]
  rw [skipBlanks_cons (by decide)]
  simp only [hskip, readValue_tooLong hn (stops_membersChars more rest)]

/-- An object is not read if its first member is such an integer. -/
theorem read_tooLong (name : String) (more : List (String × Json))
    (hn : digitLimit < (natText n).length) :
    read none (String.ofList ((object ((name, .int n) :: more)).chars compact)) =
      .error (.integerTooLong (natText n).length) := by
  obtain ⟨cs, hcs⟩ : ∃ cs, (object ((name, .int n) :: more)).chars compact = '\x7b' :: cs :=
    ⟨_, rfl⟩
  -- The object, its member and the integer take one unit of fuel each.
  have hvalue (fuel : Nat) : readValue (fuel + 3) none ('\x7b' :: cs) =
      .error (.integerTooLong (natText n).length) := by
    rw [← List.append_nil ('\x7b' :: cs), ← hcs, readValue_object, deeper]
    simp only [readMembers_tooLong name more hn]
  have hfuel : 2 * ('\x7b' :: cs).length + 1 = 2 * cs.length + 3 := by
    rw [List.length_cons]
    omega
  have hskip : skipBlanks ('\x7b' :: cs) = '\x7b' :: cs := skipBlanks_cons (by decide) _
  unfold read
  rw [String.toList_ofList, hcs, hskip]
  dsimp only
  rw [hfuel, hvalue]

end Json

namespace Http

/-- The body of an answer with the data. -/
def bodyOf (j : Json) : List UInt8 := Text.toUtf8 (String.ofList (j.chars Json.compact))

variable {j : Json} {c d : Char} {more : List Char}

/-- An object in ASCII comes to what its text comes to. -/
theorem data_bodyOf (hj : j.chars Json.compact = '\x7b' :: '"' :: c :: d :: more)
    (h : Text.ascii (j.chars Json.compact) = true) :
    data (bodyOf j) = match Json.read none (String.ofList (j.chars Json.compact)) with
      | .ok j => .ok j.settle
      | .error (.integerTooLong digits) => .error (.bodyInteger digits)
      | .error _ => .error .bodyNotJson := by
  have hempty : (bodyOf j).isEmpty = false := by
    rw [bodyOf, hj, Text.toUtf8, String.toList_ofList]
    rfl
  rw [hj] at h
  unfold data
  rw [hempty, bodyOf, hj, Text.document?_toUtf8 h]
  rfl

/-- Data that has a text is what is read. -/
theorem data_bodyOf_legible (hj : j.chars Json.compact = '\x7b' :: '"' :: c :: d :: more)
    (h : Text.ascii (j.chars Json.compact) = true) (hl : Json.Legible j) (hs : j.settle = j) :
    data (bodyOf j) = .ok j := by
  have hroom : Json.Room none j.nesting := fun _ h => by cases h
  rw [data_bodyOf hj h, Json.read_chars hl hroom]
  exact congrArg Except.ok hs

/-- What is known of a run that has ended without outputs, with a revision ahead. -/
def endedAt (revision : Int) : Json :=
  .object [("revision", .int revision), ("workflowRunId", .str "run-1")]

theorem chars_endedAt (n : Nat) : (endedAt n).chars Json.compact =
    '\x7b' :: '"' :: 'r' :: 'e' :: ("vision\":".toList ++
      (Number.natText n ++ ",\"workflowRunId\":\"run-1\"\x7d".toList)) := by
  simp [endedAt, Json.chars, Json.membersChars, Json.stringChars, Json.compact, Number.intText,
    Json.escape]

theorem ascii_natText (n : Nat) : Text.ascii (Number.natText n) = true := by
  refine List.all_eq_true.mpr fun c hc => ?_
  obtain ⟨d, hd, rfl⟩ := Number.exists_digitChar (Number.isDigit_of_mem_natText hc)
  interval_cases d <;> decide

theorem ascii_endedAt (n : Nat) : Text.ascii ((endedAt n).chars Json.compact) = true := by
  have hfront : Text.ascii "vision\":".toList = true := by decide
  have hback : Text.ascii ",\"workflowRunId\":\"run-1\"\x7d".toList = true := by decide
  rw [chars_endedAt]
  simp only [Text.ascii_cons, Text.ascii_append]
  exact ⟨by decide, by decide, by decide, by decide, hfront, ascii_natText n, hback⟩

/-- However the run is named, the answer is not read if the revision has too many digits. -/
theorem data_endedAt {n : Nat} (hn : 10 ^ Number.digitLimit ≤ n) :
    data (bodyOf (endedAt n)) = .error (.bodyInteger (Number.natText n).length) := by
  have hlength : Number.digitLimit < (Number.natText n).length := by
    refine Nat.lt_of_not_le fun hle => ?_
    exact absurd ((Number.length_natText_le_iff (by decide)).mp hle) (Nat.not_lt.mpr hn)
  have hread : Json.read none (String.ofList ((endedAt n).chars Json.compact)) =
      .error (.integerTooLong (Number.natText n).length) :=
    Json.read_tooLong "revision" _ hlength
  rw [data_bodyOf (chars_endedAt n) (ascii_endedAt n), hread]

end Http
end WorkflowClient
