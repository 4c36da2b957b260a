import WorkflowClient.Calendar.Iso
import WorkflowClient.Validation.Scalar

/-! Dates, instants and clocks, from texts in ISO 8601 and from counts of seconds. -/
namespace WorkflowClient.Validation
open Calendar Number

/-- Counts of time are whole numbers of 64 bits. -/
def countable (n : Int) : Bool := decide (-wordLimit ≤ n) && decide (n < wordLimit)

/-- The whole part and the microseconds of a float that counts seconds. -/
def doubleCount? (x : Double) : Option (Int × Nat) :=
  x.ratio?.map fun r => splitCount (r.1 < 0) r.1.natAbs r.2

/-- An instant by itself, without a view to dates. -/
def instantOf (v : Value) : Scalar Instant :=
  match v with
  | .instant t => .ok (t, .exact)
  | .int n =>
    if !countable n then .error .instantType
    else match Instant.ofCount? n 0 with
      | some t => .ok (t, .lax)
      | none => .error .instantParsing
  | .float x => match doubleCount? x with
    | none => .error .instantParsing
    | some (n, micro) => match Instant.ofCount? n micro with
      | some t => .ok (t, .lax)
      | none => .error .instantParsing
  | _ => match chars? .instantParsing v with
    | .error e => .error e
    | .ok none => .error .instantType
    | .ok (some cs) => match Instant.read? false cs with
      | some t => .ok (t, .strict)
      | none => match (count? cs).bind fun c => Instant.ofCount? c.1 c.2 with
        | some t => .ok (t, .strict)
        | none => .error .instantParsing

/-- The day of a whole count of seconds that ends at midnight. -/
def dateOfCount? (n : Int) : Option Date :=
  match Instant.ofCount? n 0 with
  | some t => if t.clock.isMidnight then some t.date else none
  | none => none

/-- A date by itself, without a view to instants. -/
def dateOf (v : Value) : Scalar Date :=
  match v with
  | .date d => .ok (d, .exact)
  | _ => match chars? .dateFromInstantParsing v with
    | .error e => .error e
    | .ok none => .error .dateType
    | .ok (some cs) => match Date.ofChars? cs with
      | some d => .ok (d, .strict)
      | none => match count? cs with
        | some (n, 0) => match dateOfCount? n with
          | some d => .ok (d, .strict)
          | none => .error .dateFromInstantParsing
        | _ => .error .dateFromInstantParsing

/-- An instant, or a date for its midnight. -/
def checkInstant (m : Mode) (v : Value) : Scalar Instant :=
  match v with
  | .instant t => .ok (t, .exact)
  | _ =>
    if m = .strict then .error .instantType
    else match instantOf v with
      | .ok r => .ok r
      | .error e => match dateOf v with
        | .ok (d, _) => .ok (⟨d, Clock.midnight none, none⟩, .lax)
        | .error .dateFromInstantParsing => .error .instantFromDateParsing
        | .error _ => .error e

/-- A date, or an instant at midnight for its day. -/
def checkDate (m : Mode) (v : Value) : Scalar Date :=
  match v with
  | .date d => .ok (d, .exact)
  | _ =>
    if m = .strict then .error .dateType
    else match dateOf v with
      | .ok r => .ok r
      | .error _ => match instantOf v with
        | .ok (t, _) =>
          if t.clock.isMidnight then .ok (t.date, .lax) else .error .dateFromInstantInexact
        | .error .instantParsing => .error .dateFromInstantParsing
        | .error _ => .error .dateType

/-- The clock of a count of seconds within a day, in universal time. -/
def clockOfCount (n : Int) (micro : Nat) : Scalar Clock :=
  let total := n.toNat + micro / 1000000
  if n < 0 ∨ 86400 ≤ total then .error .clockParsing
  else match Clock.ofSeconds? total (micro % 1000000) (some .utc) with
    | some c => .ok (c, .lax)
    | none => .error .clockParsing

def checkClock (m : Mode) (v : Value) : Scalar Clock :=
  match v with
  | .clock c => .ok (c, .exact)
  | _ =>
    if m = .strict then .error .clockType
    else match v with
      | .int n => if countable n then clockOfCount n 0 else .error .clockType
      | .float x => match doubleCount? x with
        | some (n, micro) => clockOfCount n micro
        | none => .error .clockParsing
      | _ => match chars? .clockParsing v with
        | .error e => .error e
        | .ok none => .error .clockType
        | .ok (some cs) => match Clock.read? false cs with
          | some c => .ok (c, .strict)
          | none => .error .clockParsing

end WorkflowClient.Validation
