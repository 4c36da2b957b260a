/-! Days, times of day, and the two together. -/
namespace WorkflowClient.Calendar

/-! Days of the proleptic Gregorian calendar, years 1 to 9999. -/

def isLeap (year : Nat) : Bool := year % 4 = 0 && (year % 100 ≠ 0 || year % 400 = 0)

def daysIn (year month : Nat) : Nat :=
  if month = 2 then if isLeap year then 29 else 28
  else if month = 4 ∨ month = 6 ∨ month = 9 ∨ month = 11 then 30
  else 31

structure Date where
  year : Nat
  month : Nat
  day : Nat
  valid : 1 ≤ year ∧ year ≤ 9999 ∧ 1 ≤ month ∧ month ≤ 12 ∧ 1 ≤ day ∧ day ≤ daysIn year month
deriving DecidableEq

namespace Date

def of? (year month day : Nat) : Option Date :=
  if h : 1 ≤ year ∧ year ≤ 9999 ∧ 1 ≤ month ∧ month ≤ 12 ∧ 1 ≤ day ∧ day ≤ daysIn year month then
    some ⟨year, month, day, h⟩
  else none

/-- Days since 1 January 1970. Years run from March, so that the leap day is the last one. -/
def dayNumber (d : Date) : Int :=
  let y : Int := if d.month ≤ 2 then (d.year : Int) - 1 else d.year
  let era := y / 400
  let yearOfEra := y - era * 400
  let dayOfYear : Int := (153 * ((d.month + 9) % 12) + 2) / 5 + d.day - 1
  era * 146097 + (yearOfEra * 365 + yearOfEra / 4 - yearOfEra / 100 + dayOfYear) - 719468

/-- The day of a number of days since 1 January 1970. -/
def ofDayNumber? (n : Int) : Option Date :=
  let z := n + 719468
  let era := z / 146097
  let dayOfEra := z - era * 146097
  let yearOfEra := (dayOfEra - dayOfEra / 1460 + dayOfEra / 36524 - dayOfEra / 146096) / 365
  let dayOfYear := dayOfEra - (365 * yearOfEra + yearOfEra / 4 - yearOfEra / 100)
  let shifted := (5 * dayOfYear + 2) / 153
  let day := dayOfYear - (153 * shifted + 2) / 5 + 1
  let month := if shifted < 10 then shifted + 3 else shifted - 9
  let year := yearOfEra + era * 400 + (if month ≤ 2 then 1 else 0)
  of? year.toNat month.toNat day.toNat

end Date

/-! Times of day, with or without an offset from universal time. -/

/-- Seconds east of universal time. -/
structure Offset where
  seconds : Int
  within : -86400 < seconds ∧ seconds < 86400
deriving DecidableEq

def Offset.of? (seconds : Int) : Option Offset :=
  if h : -86400 < seconds ∧ seconds < 86400 then some ⟨seconds, h⟩ else none

def Offset.utc : Offset := ⟨0, by decide⟩

structure Clock where
  hour : Nat
  minute : Nat
  second : Nat
  microsecond : Nat
  offset : Option Offset
  valid : hour < 24 ∧ minute < 60 ∧ second < 60 ∧ microsecond < 1000000
deriving DecidableEq

namespace Clock

def of? (hour minute second microsecond : Nat) (offset : Option Offset) : Option Clock :=
  if h : hour < 24 ∧ minute < 60 ∧ second < 60 ∧ microsecond < 1000000 then
    some ⟨hour, minute, second, microsecond, offset, h⟩
  else none

def midnight (offset : Option Offset) : Clock := ⟨0, 0, 0, 0, offset, by decide⟩

def isMidnight (c : Clock) : Bool :=
  c.hour = 0 && c.minute = 0 && c.second = 0 && c.microsecond = 0

/-- Microseconds since midnight on the clock itself. -/
def microseconds (c : Clock) : Nat :=
  ((c.hour * 60 + c.minute) * 60 + c.second) * 1000000 + c.microsecond

/-- The clock after seconds and microseconds of a day. -/
def ofSeconds? (seconds microsecond : Nat) (offset : Option Offset) : Option Clock :=
  of? (seconds / 3600) (seconds / 60 % 60) (seconds % 60) microsecond offset

/-- Microseconds since midnight of universal time, if the offset is known. -/
def universal? (c : Clock) : Option Int :=
  c.offset.map fun o => (c.microseconds : Int) - o.seconds * 1000000

/-- Clocks with offsets are equal when they show the same moment, clocks without when they show the
same time, and others never. -/
def equals (a b : Clock) : Bool :=
  match a.universal?, b.universal? with
  | some x, some y => x == y
  | none, none => a.microseconds == b.microseconds
  | _, _ => false

end Clock

/-! A day and a time on it, and counts of seconds since 1970. -/

structure Instant where
  date : Date
  clock : Clock
  /-- The zone whose clock it is, where that shows the time twice, or not at all, because the offset
  of the zone changes. Elsewhere the offset says all. -/
  zone : Option String := none
deriving DecidableEq

namespace Instant

/-- Microseconds from 1970 as the clock shows them. -/
def shown (t : Instant) : Int := t.date.dayNumber * 86400000000 + t.clock.microseconds

/-- The moment, from an offset; but where the clock of a zone shows the time twice, or not at all,
the time that it shows, under the name of the zone. -/
def moment (t : Instant) (o : Offset) : Option String × Int :=
  match t.zone with
  | some z => (some z, t.shown)
  | none => (none, t.shown - o.seconds * 1000000)

/-- Equality of moments for two instants with offsets, of what is shown for two without. -/
def equals (a b : Instant) : Bool :=
  match a.clock.offset, b.clock.offset with
  | some o, some p => a.moment o == b.moment p
  | none, none => a.shown == b.shown
  | _, _ => false

/-- Beyond this many, a count of time is one of milliseconds. -/
def secondsLimit : Int := 20000000000

/-- The moment of a whole count of seconds, or of milliseconds when it is great, and a fraction
in microseconds. Years before 1600 and after 9999 have none. -/
def ofCount? (count : Int) (microseconds : Nat) : Option Instant :=
  let large := count < -secondsLimit || secondsLimit < count
  let seconds := if large then count / 1000 else count
  let total := microseconds + (if large then (count % 1000).toNat * 1000 else 0)
  let seconds := seconds + (total / 1000000 : Nat)
  if seconds < -11676096000 || 253402300799 < seconds then none
  else
    match Date.ofDayNumber? (seconds / 86400),
        Clock.ofSeconds? (seconds % 86400).toNat (total % 1000000) (some .utc) with
    | some d, some c => some ⟨d, c, none⟩
    | _, _ => none

end Instant
end WorkflowClient.Calendar
