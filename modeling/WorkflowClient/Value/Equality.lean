import WorkflowClient.Value.Basic

/-! When two values count as equal, and which values can be keys. -/
namespace WorkflowClient.Value

/-- Values that are compared as numbers. -/
inductive Quantity
  | exact (x : Number.Exact)
  | infinite (negative : Bool)
  | nan
deriving DecidableEq

def Quantity.ofDouble (x : Number.Double) : Quantity :=
  match Number.Exact.ofDouble? x with
  | some e => .exact e
  | Option.none => match x with
    | .infinite s => .infinite s
    | _ => .nan

def Quantity.ofDecimal (d : Number.Decimal) : Quantity :=
  match d with
  | .finite s c e => .exact (.normal s c e)
  | .infinite s => .infinite s
  | .nan .. => .nan

/-- The number that a value is: truth values and members of integer enumerations are numbers too. -/
def quantity? : Value → Option Quantity
  | .bool b => some (.exact (.ofInt (if b then 1 else 0)))
  | .int n => some (.exact (.ofInt n))
  | .float x => some (.ofDouble x)
  | .decimal d => some (.ofDecimal d)
  | .member .integer _ _ (.int n) => some (.exact (.ofInt n))
  | _ => Option.none

/-- The text that a value is: members of text enumerations are texts too. -/
def text? : Value → Option String
  | .str s => some s
  | .member .text _ _ (.str s) => some s
  | _ => Option.none

/-- Numbers are equal by their amount; a NaN is equal to nothing. -/
def Quantity.equals : Quantity → Quantity → Bool
  | .nan, _ => false
  | a, b => a = b

/-- Items of a tuple, named or not. -/
def tupleItems? : Value → Option (List Value)
  | .sequence .tuple items => some items
  | .record .tuple _ fields => some (fields.map (·.2))
  | _ => Option.none

/-- Items of a set, whether open to change or not. -/
def setItems? : Value → Option (List Value)
  | .sequence .set items => some items
  | .sequence .frozenSet items => some items
  | _ => Option.none

/-- Equality of values without parts. -/
def leafEquals (v w : Value) : Bool :=
  match v.quantity?, w.quantity? with
  | some a, some b => a.equals b
  | _, _ => match v.text?, w.text? with
    | some s, some t => s == t
    | _, _ => match v, w with
      | .none, .none => true
      | .octets _ a, .octets _ b => a == b
      | .range a b, .range c d => (b ≤ a && d ≤ c) || (a == c && b == d)
      | .member .plain c n _, .member .plain d m _ => c == d && n == m
      | .date a, .date b => a == b
      | .clock a, .clock b => a.equals b
      | .instant a, .instant b => a.equals b
      | .span a, .span b => a == b
      | .uuid a, .uuid b => a == b
      | .complex a b, .complex c d => a.equals c && b.equals d
      | .classObject k c, .classObject l d => k == l && c == d
      | _, _ => false

mutual

/-- Equality across the kinds that can be equal. Two plain instances are two objects, and never
equal. -/
def equals : Value → Value → Bool
  | .sequence .list xs, w => match w with
    | .sequence .list ys => equalItems xs ys
    | _ => false
  | .sequence .queue xs, w => match w with
    | .sequence .queue ys => equalItems xs ys
    | _ => false
  | .sequence .tuple xs, w => match w.tupleItems? with
    | some ys => equalItems xs ys
    | Option.none => false
  | .sequence .set xs, w => match w.setItems? with
    | some ys => xs.length == ys.length && allAmong xs ys
    | Option.none => false
  | .sequence .frozenSet xs, w => match w.setItems? with
    | some ys => xs.length == ys.length && allAmong xs ys
    | Option.none => false
  | .dict xs, w => match w with
    | .dict ys => xs.length == ys.length && entriesAmong xs ys
    | _ => false
  | .record .tuple _ xs, w => match w.tupleItems? with
    | some ys => equalParts xs ys
    | Option.none => false
  | .record k c xs, w => match w with
    | .record l d ys => k == l && c == d && equalFields xs ys
    | _ => false
  | v, w => leafEquals v w
termination_by structural v => v

def equalItems : List Value → List Value → Bool
  | [], [] => true
  | x :: xs, y :: ys => x.equals y && equalItems xs ys
  | _, _ => false
termination_by structural v => v

/-- The values of the fields equal the items in turn. -/
def equalParts : List (String × Value) → List Value → Bool
  | [], [] => true
  | (_, x) :: xs, y :: ys => x.equals y && equalParts xs ys
  | _, _ => false
termination_by structural v => v

def equalFields : List (String × Value) → List (String × Value) → Bool
  | [], [] => true
  | (n, x) :: xs, (m, y) :: ys => n == m && x.equals y && equalFields xs ys
  | _, _ => false
termination_by structural v => v

/-- Every value of the first list equals one of the second. -/
def allAmong : List Value → List Value → Bool
  | [], _ => true
  | x :: xs, ys => ys.any (fun y => x.equals y) && allAmong xs ys
termination_by structural v => v

/-- Every entry of the first list has an equal key with an equal value in the second. -/
def entriesAmong : List (Value × Value) → List (Value × Value) → Bool
  | [], _ => true
  | (k, x) :: xs, ys =>
    ys.any (fun e => k.equals e.1 && x.equals e.2) && entriesAmong xs ys
termination_by structural v => v
end

instance : BEq Value := ⟨equals⟩

mutual

/-- Values that never change, and so can be keys and members of sets. `frozen` tells the models
whose fields cannot be set. -/
def hashable (frozen : String → Bool) : Value → Bool
  | .sequence .list _ | .sequence .set _ | .sequence .queue _ | .dict _ => false
  | .octets .mutable _ => false
  | .sequence .tuple items => hashableItems frozen items
  | .sequence .frozenSet _ => true
  | .record .tuple _ fields => hashableFields frozen fields
  | .record .model cls fields => frozen cls && hashableFields frozen fields
  | .record .data .. => false
  | _ => true

def hashableItems (frozen : String → Bool) : List Value → Bool
  | [] => true
  | v :: rest => v.hashable frozen && hashableItems frozen rest

def hashableFields (frozen : String → Bool) : List (String × Value) → Bool
  | [] => true
  | (_, v) :: rest => v.hashable frozen && hashableFields frozen rest

end

/-- The values without those that equal an earlier one. -/
def distinct (vs : List Value) : List Value :=
  (vs.foldl (fun acc v => if acc.any (· == v) then acc else v :: acc) []).reverse

end WorkflowClient.Value
