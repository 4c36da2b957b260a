import WorkflowClient.Calendar.Basic
import WorkflowClient.Number.Layout
import WorkflowClient.Number.Reading

/-! ISO 8601 texts of dates, clocks, instants and spans of time. -/
namespace WorkflowClient.Calendar
open Number (natText value)

/-- `n` in at least `width` digits. -/
def padded (width n : Nat) : List Char :=
  let ds := natText n
  List.replicate (width - ds.length) '0' ++ ds

def Date.chars (d : Date) : List Char :=
  padded 4 d.year ++ '-' :: padded 2 d.month ++ '-' :: padded 2 d.day

/-- Sign, hours and minutes, and seconds unless there are none. -/
def Offset.chars (o : Offset) : List Char :=
  let n := o.seconds.natAbs
  (if o.seconds < 0 then '-' else '+') :: padded 2 (n / 3600) ++ ':' :: padded 2 (n / 60 % 60) ++
    (if n % 60 = 0 then [] else ':' :: padded 2 (n % 60))

/-- The clock without its offset; microseconds only if there are any. -/
def Clock.localChars (c : Clock) : List Char :=
  padded 2 c.hour ++ ':' :: padded 2 c.minute ++ ':' :: padded 2 c.second ++
    (if c.microsecond = 0 then [] else '.' :: padded 6 c.microsecond)

def Clock.chars (c : Clock) : List Char :=
  c.localChars ++ (match c.offset with
    | some o => o.chars
    | none => [])

def Instant.chars (t : Instant) : List Char := t.date.chars ++ 'T' :: t.clock.chars

/-- The clock with `Z` for universal time and offsets in whole minutes. -/
def Clock.zuluChars (c : Clock) : List Char :=
  c.localChars ++ (match c.offset with
    | none => []
    | some o =>
      let n := o.seconds.natAbs
      if o.seconds = 0 then ['Z']
      else (if o.seconds < 0 then '-' else '+') ::
        padded 2 (n / 3600) ++ ':' :: padded 2 (n / 60 % 60))

def Instant.zuluChars (t : Instant) : List Char := t.date.chars ++ 'T' :: t.clock.zuluChars

/-- A span of microseconds in days, hours, minutes and seconds, years having 365 days. Parts that
are zero are left out, but not all of them. -/
def spanChars (microseconds : Int) : List Char :=
  let n := microseconds.natAbs
  let micro := n % 1000000
  let seconds := n / 1000000 % 86400
  let days := n / 86400000000
  let part (count : Nat) (unit : Char) := if count = 0 then [] else natText count ++ [unit]
  let fraction := if micro = 0 then [] else '.' :: Number.stripZeros (padded 6 micro)
  let clock :=
    if seconds = 0 ∧ micro = 0 then []
    else 'T' :: part (seconds / 3600) 'H' ++ part (seconds / 60 % 60) 'M' ++
      (if seconds % 60 = 0 ∧ micro = 0 then []
       else natText (seconds % 60) ++ fraction ++ ['S'])
  (if microseconds < 0 then ['-'] else []) ++ 'P' :: part (days / 365) 'Y' ++
    part (days % 365) 'D' ++ (if n = 0 then ['T', '0', 'S'] else clock)

/-- Exactly `width` digits. -/
def fixed? (width : Nat) (cs : List Char) : Option Nat :=
  if cs.length = width ∧ cs.all Char.isDigit then some (value cs) else none

/-- Year, month and day with hyphens between. -/
def Date.ofChars? (cs : List Char) : Option Date :=
  if cs.length = 10 ∧ cs[4]? = some '-' ∧ cs[7]? = some '-' then
    match fixed? 4 (cs.take 4), fixed? 2 ((cs.drop 5).take 2), fixed? 2 (cs.drop 8) with
    | some y, some m, some d => Date.of? y m d
    | _, _, _ => none
  else none

/-- An offset after its sign: hours and minutes with or without a colon and, where `withSeconds`,
also seconds. -/
def Offset.ofChars? (withSeconds negative : Bool) (cs : List Char) : Option Offset :=
  let seconds? : Option Nat :=
    match cs with
    | [a, b, c, d] => do
      let h ← fixed? 2 [a, b]
      let m ← fixed? 2 [c, d]
      if m < 60 then some (h * 3600 + m * 60) else none
    | [a, b, ':', c, d] => do
      let h ← fixed? 2 [a, b]
      let m ← fixed? 2 [c, d]
      if m < 60 then some (h * 3600 + m * 60) else none
    | [a, b, ':', c, d, ':', e, f] => do
      let h ← fixed? 2 [a, b]
      let m ← fixed? 2 [c, d]
      let s ← fixed? 2 [e, f]
      if withSeconds && m < 60 && s < 60 then some (h * 3600 + m * 60 + s) else none
    | _ => none
  seconds?.bind fun n => Offset.of? (Number.signed negative n)

/-- What may follow the digits of a clock: nothing, `Z` in either case, or a signed offset. -/
def zone? (withSeconds : Bool) : List Char → Option (Option Offset)
  | [] => some none
  | c :: rest =>
    if c = 'Z' || c = 'z' then if rest.isEmpty then some (some .utc) else none
    else if c = '+' then (Offset.ofChars? withSeconds false rest).map some
    else if c = '-' || c = '\u2212' then (Offset.ofChars? withSeconds true rest).map some
    else none

/-- The first six digits of a fraction of a second, in microseconds. -/
def fractionMicroseconds (ds : List Char) : Nat :=
  value ((ds ++ List.replicate 6 '0').take 6)

/-- Hours and minutes, perhaps seconds, perhaps their fraction, perhaps an offset. -/
def Clock.read? (withSeconds : Bool) (cs : List Char) : Option Clock :=
  if cs[2]? = some ':' then
    match fixed? 2 (cs.take 2), fixed? 2 ((cs.drop 3).take 2) with
    | some h, some m =>
      let rest := cs.drop 5
      let timed? : Option (Nat × Nat × List Char) :=
        match rest with
        | ':' :: a :: b :: more =>
          match fixed? 2 [a, b] with
          | none => none
          | some s => match more with
            | c :: fraction =>
              if c = '.' || c = ',' then
                let (ds, after) := Number.spanDigits fraction
                if ds.isEmpty then none else some (s, fractionMicroseconds ds, after)
              else some (s, 0, more)
            | [] => some (s, 0, [])
        | _ => some (0, 0, rest)
      match timed? with
      | some (s, micro, after) =>
        (zone? withSeconds after).bind fun zone => Clock.of? h m s micro zone
      | none => none
    | _, _ => none
  else none

def Instant.read? (withSeconds : Bool) (cs : List Char) : Option Instant :=
  match cs.drop 10 with
  | c :: rest =>
    if c = 'T' || c = 't' || c = ' ' || c = '_' then
      match Date.ofChars? (cs.take 10), Clock.read? withSeconds rest with
      | some d, some t => some ⟨d, t, none⟩
      | _, _ => none
    else none
  | [] => none

/-- The nearest count of microseconds to `numerator / denominator` seconds, a half counting up. -/
def nearestMicroseconds (numerator denominator : Nat) : Nat :=
  (2000000 * numerator + denominator) / (2 * denominator)

/-- A whole count and a fraction of one in microseconds, for a number that is `numerator /
denominator`. The whole is the greatest one not above; the fraction is read without the sign. -/
def splitCount (negative : Bool) (numerator denominator : Nat) : Int × Nat :=
  let whole := numerator / denominator
  let rest := numerator % denominator
  let count : Int :=
    if negative then if rest = 0 then -(whole : Int) else -(whole : Int) - 1 else whole
  (count, nearestMicroseconds rest denominator)

/-- A count of time in a text: a sign, digits, and perhaps a fraction. -/
def count? (cs : List Char) : Option (Int × Nat) :=
  let (negative, rest) := Number.sign cs
  let (whole, after) := Number.spanDigits rest
  if whole.isEmpty then none
  else match after with
    | [] => some (Number.signed negative (value whole), 0)
    | '.' :: ds =>
      if ds.all Char.isDigit then
        some (splitCount negative (value (whole ++ ds)) (Nat.pow 10 ds.length))
      else none
    | _ => none

end WorkflowClient.Calendar
