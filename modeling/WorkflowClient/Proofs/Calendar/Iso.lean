import Mathlib.Data.List.Basic
import WorkflowClient.Calendar.Iso
import WorkflowClient.Proofs.Number.Digits

/-! Dates, clocks and instants are read back from their texts. -/
namespace WorkflowClient.Calendar
open Number

variable {n width : Nat} {cs rest : List Char} {d : Date} {c : Clock} {o : Offset}
  {withSeconds : Bool}

theorem length_padded (hw : 0 < width) (h : n < 10 ^ width) : (padded width n).length = width := by
  have hlen := length_natText_le n width hw h
  rw [padded, List.length_append, List.length_replicate]
  omega

theorem isDigit_of_mem_padded : ∀ x ∈ padded width n, x.isDigit = true :=
  isDigit_append (isDigit_replicate_zero _) fun _ => isDigit_of_mem_natText

theorem value_padded (width n : Nat) : value (padded width n) = n := by
  rw [padded, value_zeros_append, value_natText]

theorem fixed?_padded (hw : 0 < width) (h : n < 10 ^ width) :
    fixed? width (padded width n) = some n := by
  have hall : (padded width n).all Char.isDigit = true :=
    List.all_eq_true.mpr isDigit_of_mem_padded
  rw [fixed?, if_pos ⟨length_padded hw h, hall⟩, value_padded]

theorem daysIn_le (year month : Nat) : daysIn year month ≤ 31 := by
  unfold daysIn
  split
  · split <;> decide
  · split <;> decide

theorem Date.bounds (d : Date) : d.year < 10 ^ 4 ∧ d.month < 10 ^ 2 ∧ d.day < 10 ^ 2 := by
  have hv := d.valid
  have hd := daysIn_le d.year d.month
  omega

theorem Date.length_chars (d : Date) : d.chars.length = 10 := by
  obtain ⟨hy, hm, hd⟩ := d.bounds
  simp [Date.chars, length_padded (by decide) hy, length_padded (by decide) hm,
    length_padded (by decide) hd]

theorem Date.ofChars?_chars (d : Date) : Date.ofChars? d.chars = some d := by
  obtain ⟨hy, hm, hd⟩ := d.bounds
  have hly := length_padded (by decide) hy
  have hlm := length_padded (by decide) hm
  unfold Date.ofChars?
  rw [if_pos ⟨d.length_chars, by simp [Date.chars, hly],
    by simp [Date.chars, List.getElem?_append, hly, hlm]⟩]
  have h₁ : d.chars.take 4 = padded 4 d.year := by simp [Date.chars, hly]
  have h₂ : (d.chars.drop 5).take 2 = padded 2 d.month := by
    simp (disch := omega) [Date.chars, List.drop_append, List.drop_of_length_le, hly, hlm]
  have h₃ : d.chars.drop 8 = padded 2 d.day := by
    simp (disch := omega) [Date.chars, List.drop_append, List.drop_of_length_le, hly, hlm]
  rw [h₁, h₂, h₃, fixed?_padded (by decide) hy, fixed?_padded (by decide) hm,
    fixed?_padded (by decide) hd]
  exact dif_pos d.valid

/-- Two digits that are read as the number they show. -/
theorem padded_eq_pair (h : n < 10 ^ 2) :
    ∃ a b, padded 2 n = [a, b] ∧ fixed? 2 [a, b] = some n := by
  have hfixed := fixed?_padded (by decide) h
  obtain ⟨a, b, hab⟩ := List.length_eq_two.mp (length_padded (by decide) h)
  exact ⟨a, b, hab, hab ▸ hfixed⟩

/-- The offset is in whole minutes, as texts show it that others can read. -/
def Offset.Whole (o : Offset) : Prop := o.seconds % 60 = 0

/-- Hours and minutes of an offset. -/
def Offset.hands (o : Offset) : List Char :=
  padded 2 (o.seconds.natAbs / 3600) ++ ':' :: padded 2 (o.seconds.natAbs / 60 % 60)

theorem Offset.ofChars?_hands (h : o.Whole) :
    Offset.ofChars? withSeconds (decide (o.seconds < 0)) o.hands = some o := by
  obtain ⟨seconds, hlow, hhigh⟩ := o
  change seconds % 60 = 0 at h
  obtain ⟨a, b, hab, hh⟩ := padded_eq_pair (n := seconds.natAbs / 3600) (by omega)
  obtain ⟨x, y, hxy, hm⟩ := padded_eq_pair (n := seconds.natAbs / 60 % 60) (by omega)
  have hsigned : signed (decide (seconds < 0))
      (seconds.natAbs / 3600 * 3600 + seconds.natAbs / 60 % 60 * 60) = seconds := by
    by_cases hs : seconds < 0
    · rw [signed, if_pos (by simpa using hs)]
      omega
    · rw [signed, if_neg (by simpa using hs)]
      omega
  have hlt : seconds.natAbs / 60 % 60 < 60 := Nat.mod_lt _ (by decide)
  rw [hands, hab, hxy]
  simp only [List.cons_append, List.nil_append, Offset.ofChars?]
  simp [hh, hm, hlt, hsigned, Offset.of?, hlow, hhigh]

theorem Offset.chars_eq (h : o.Whole) :
    o.chars = (if o.seconds < 0 then '-' else '+') :: o.hands := by
  have hmod : o.seconds.natAbs % 60 = 0 := by
    change o.seconds % 60 = 0 at h
    omega
  simp [Offset.chars, Offset.hands, hmod]

theorem zone?_signed (h : o.Whole) :
    zone? withSeconds ((if o.seconds < 0 then '-' else '+') :: o.hands) = some (some o) := by
  have hread : Offset.ofChars? withSeconds (decide (o.seconds < 0)) o.hands = some o :=
    Offset.ofChars?_hands h
  by_cases hs : o.seconds < 0
  · simp only [hs, decide_true] at hread
    simp [zone?, hs, hread]
  · simp only [hs, decide_false] at hread
    simp [zone?, hs, hread]

/-- The zone of a clock with an offset or without, as one of two notations has it. -/
inductive ZoneText : Option Offset → List Char → Prop
  | unknown : ZoneText none []
  | utc : ZoneText (some .utc) ['Z']
  | signed {o : Offset} (h : o.Whole) :
      ZoneText (some o) ((if o.seconds < 0 then '-' else '+') :: o.hands)

theorem ZoneText.read {zone : Option Offset} (h : ZoneText zone cs) :
    zone? withSeconds cs = some zone := by
  cases h with
  | unknown => rfl
  | utc => rfl
  | signed h => exact zone?_signed h

/-- A zone begins with nothing that goes on a clock. -/
theorem ZoneText.head {zone : Option Offset} (h : ZoneText zone cs) :
    ∀ x ∈ cs.head?, x.isDigit = false ∧ x ≠ '.' ∧ x ≠ ',' ∧ x ≠ ':' := by
  intro x hx
  cases h with
  | unknown => cases hx
  | utc =>
    cases hx
    decide
  | signed h =>
    cases hx
    split <;> decide

theorem value_take_six {ds : List Char} (h : ds.length = 6) :
    fractionMicroseconds ds = value ds := by
  rw [fractionMicroseconds, List.take_append_of_le_length (by omega),
    List.take_of_length_le (by omega)]

/-- What follows the minutes: seconds, and microseconds unless there are none. -/
theorem Clock.read?_append {zone : List Char} (hz : ZoneText c.offset zone) :
    Clock.read? withSeconds (c.localChars ++ zone) = some c := by
  obtain ⟨hour, minute, second, micro, offset, hv⟩ := c
  obtain ⟨a, b, hab, hh⟩ := padded_eq_pair (n := hour) (by omega)
  obtain ⟨p, q, hpq, hm⟩ := padded_eq_pair (n := minute) (by omega)
  obtain ⟨x, y, hxy, hs⟩ := padded_eq_pair (n := second) (by omega)
  have hof : Clock.of? hour minute second micro offset =
      some ⟨hour, minute, second, micro, offset, hv⟩ :=
    dif_pos hv
  have hread : zone? withSeconds zone = some offset := hz.read
  dsimp only at hz
  by_cases h0 : micro = 0
  · subst h0
    have hchars : Clock.localChars ⟨hour, minute, second, 0, offset, hv⟩ ++ zone =
        a :: b :: ':' :: p :: q :: ':' :: x :: y :: zone := by
      simp [Clock.localChars, hab, hpq, hxy]
    rw [hchars]
    cases zone with
    | nil => simp [Clock.read?, hh, hm, hs, hread, hof]
    | cons z more =>
      obtain ⟨-, hdot, hcomma, -⟩ := hz.head z rfl
      simp [Clock.read?, hh, hm, hs, hread, hof, hdot, hcomma]
  · have hsix : (padded 6 micro).length = 6 := length_padded (by decide) (by omega)
    have hchars : Clock.localChars ⟨hour, minute, second, micro, offset, hv⟩ ++ zone =
        a :: b :: ':' :: p :: q :: ':' :: x :: y :: '.' :: (padded 6 micro ++ zone) := by
      simp [Clock.localChars, hab, hpq, hxy, h0]
    have hspan : spanDigits (padded 6 micro ++ zone) = (padded 6 micro, zone) :=
      spanDigits_append isDigit_of_mem_padded fun z hmem => (hz.head z hmem).1
    have hne : padded 6 micro ≠ [] := by
      intro hnil
      rw [hnil] at hsix
      cases hsix
    rw [hchars]
    simp [Clock.read?, hh, hm, hs, hspan, hne, value_take_six hsix, value_padded, hread, hof]

/-- The clock can be read from its text: its offset, if it has one, is in whole minutes. -/
def Clock.Readable (c : Clock) : Prop := ∀ o ∈ c.offset, o.Whole

theorem Clock.read?_chars (h : c.Readable) : Clock.read? withSeconds c.chars = some c := by
  refine Clock.read?_append ?_
  cases ho : c.offset with
  | none => exact .unknown
  | some o =>
    have hw : o.Whole := h o ho
    dsimp only
    rw [Offset.chars_eq hw]
    exact .signed hw

theorem Clock.read?_zuluChars (h : c.Readable) : Clock.read? withSeconds c.zuluChars = some c := by
  refine Clock.read?_append ?_
  cases ho : c.offset with
  | none => exact .unknown
  | some o =>
    have hw : o.Whole := h o ho
    dsimp only
    split
    · rename_i hzero
      obtain ⟨seconds, hs⟩ := o
      subst hzero
      exact .utc
    · exact .signed hw

/-- The instant can be read from its text: its clock can, and its offset says all. -/
structure Instant.Readable (t : Instant) : Prop where
  clock : t.clock.Readable
  unzoned : t.zone = none

theorem Instant.read?_append {t : Instant} (h : Clock.read? withSeconds cs = some t.clock) :
    Instant.read? withSeconds (t.date.chars ++ 'T' :: cs) = some ⟨t.date, t.clock, none⟩ := by
  have hlen := t.date.length_chars
  have hdrop : (t.date.chars ++ 'T' :: cs).drop 10 = 'T' :: cs := List.drop_left' hlen
  have htake : (t.date.chars ++ 'T' :: cs).take 10 = t.date.chars := List.take_left' hlen
  simp [Instant.read?, hdrop, htake, h, Date.ofChars?_chars]

theorem Instant.Readable.eq {t : Instant} (h : t.Readable) :
    (⟨t.date, t.clock, none⟩ : Instant) = t := by
  rw [← h.unzoned]

theorem Instant.read?_chars {t : Instant} (h : t.Readable) :
    Instant.read? withSeconds t.chars = some t :=
  h.eq ▸ Instant.read?_append (Clock.read?_chars h.clock)

theorem Instant.read?_zuluChars {t : Instant} (h : t.Readable) :
    Instant.read? withSeconds t.zuluChars = some t :=
  h.eq ▸ Instant.read?_append (Clock.read?_zuluChars h.clock)

end WorkflowClient.Calendar
