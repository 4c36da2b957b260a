import WorkflowClient.Text.Unicode
import WorkflowClient.Validation.Fault
import WorkflowClient.Value.Equality
import WorkflowClient.Value.Text

/-! Numbers, texts, truth values, octets and identifiers: what is accepted for each, and how exactly
it matched. -/
namespace WorkflowClient.Validation
open Number

/-- How well a value fits a type, the best last. -/
inductive Exactness
  | lax
  | strict
  | exact
deriving DecidableEq

def Exactness.rank : Exactness → Nat
  | .lax => 0
  | .strict => 1
  | .exact => 2

/-- A converted value and its exactness, or the kind of fault. -/
abbrev Scalar (α : Type) := Except FaultKind (α × Exactness)

/-- The bounds between which floats are converted to integers. -/
def wordLimit : Int := 9223372036854775808

def intOfDouble (x : Double) : Except FaultKind Int :=
  if !x.isFinite then .error .finiteNumber
  else match x.int? with
    | none => .error .intFromFloat
    | some n => if -wordLimit < n ∧ n < wordLimit then .ok n else .error .intParsingSize

def intOfDecimal (d : Decimal) : Except FaultKind Int :=
  match Exact.ofDecimal? d with
  | none => .error .finiteNumber
  | some x => match x.int? with
    | some n => .ok n
    | none => .error .intFromFloat

def intOfChars (cs : List Char) : Except FaultKind Int :=
  match integer (Text.trim Text.isWhiteSpace cs) with
  | .integer n => .ok n
  | .tooLong => .error .intParsingSize
  | .malformed => .error .intParsing

/-- The characters of a text, or of octets that hold one. -/
def chars? (onBadOctets : FaultKind) (v : Value) : Except FaultKind (Option (List Char)) :=
  match v.text? with
  | some s => .ok (some s.toList)
  | none => match v with
    | .octets .view _ => .ok none
    | .octets _ data => match Text.utf8? data with
      | some s => .ok (some s.toList)
      | none => .error onBadOctets
    | _ => .ok none

def lax {α : Type} (r : Except FaultKind α) : Scalar α := r.map fun a => (a, .lax)

def checkInt (m : Mode) (v : Value) : Scalar Int :=
  match v with
  | .int n => .ok (n, .exact)
  | .member .integer _ _ (.int n) => .ok (n, .strict)
  | _ =>
    if m = .strict then .error .intType
    else match v with
      | .bool b => .ok (if b then 1 else 0, .lax)
      | .float x => lax (intOfDouble x)
      | .decimal d => lax (intOfDecimal d)
      | .member .plain _ _ (.int n) => .ok (n, .lax)
      | _ => match chars? .intParsing v with
        | .error e => .error e
        | .ok (some cs) => lax (intOfChars cs)
        | .ok none => .error .intType

/-- An integer as a float, for values of the application only if it is not too great. -/
def floatOfInt (m : Mode) (n : Int) : Scalar Double :=
  let x := Double.ofInt n
  if m = .data || x.isFinite then .ok (x, .strict) else .error .floatType

def checkFloat (m : Mode) (v : Value) : Scalar Double :=
  match v with
  | .float x => .ok (x, .exact)
  | .int n => floatOfInt m n
  | .member .integer _ _ (.int n) => floatOfInt m n
  | .decimal d => .ok (d.toDouble, .strict)
  | _ =>
    if m = .strict then .error .floatType
    else match v with
      | .bool b => .ok (Double.ofInt (if b then 1 else 0), .lax)
      | _ => match chars? .floatParsing v with
        | .error e => .error e
        | .ok (some cs) => match double? cs with
          | some x => .ok (x, .lax)
          | none => .error .floatParsing
        | .ok none => .error .floatType

def checkStr (m : Mode) (v : Value) : Scalar String :=
  match v with
  | .str s => .ok (s, .exact)
  | .member .text _ _ (.str s) => .ok (s, .strict)
  | _ =>
    if m ≠ .lax then .error .stringType
    else match v with
      | .member _ _ _ value => .ok (value.text, .lax)
      | _ => match chars? .stringUnicode v with
        | .error e => .error e
        | .ok (some cs) => .ok (String.ofList cs, .lax)
        | .ok none => .error .stringType

def trueWords : List String := ["1", "t", "true", "y", "yes", "on"]

def falseWords : List String := ["0", "f", "false", "n", "no", "off"]

def boolOfChars (cs : List Char) : Except FaultKind Bool :=
  let word := Text.lower (String.ofList cs)
  if trueWords.contains word then .ok true
  else if falseWords.contains word then .ok false
  else .error .boolParsing

def boolOfInt (n : Int) : Except FaultKind Bool :=
  if n = 1 then .ok true
  else if n = 0 then .ok false
  else if -wordLimit ≤ n ∧ n < wordLimit then .error .boolParsing
  else .error .boolType

def boolOfDouble (x : Double) : Except FaultKind Bool :=
  match intOfDouble x with
  | .ok n => boolOfInt n
  | .error _ => .error .boolType

def checkBool (m : Mode) (v : Value) : Scalar Bool :=
  match v with
  | .bool b => .ok (b, .exact)
  | _ =>
    if m = .strict then .error .boolType
    else match v with
      | .int n => lax (boolOfInt n)
      | .member .integer _ _ (.int n) => lax (boolOfInt n)
      | .float x => lax (boolOfDouble x)
      | .decimal d => lax (boolOfDouble d.toDouble)
      | _ => match chars? .boolParsing v with
        | .error e => .error e
        | .ok (some cs) => lax (boolOfChars cs)
        | .ok none => .error .boolType

def checkNull (v : Value) : Scalar Unit :=
  match v with
  | .none => .ok ((), .exact)
  | _ => .error .noneRequired

def checkBytes (m : Mode) (v : Value) : Scalar (List UInt8) :=
  match v with
  | .octets .fixed data => .ok (data, .exact)
  | _ =>
    if m = .strict then .error .bytesType
    else match v with
      | .octets .mutable data => .ok (data, .lax)
      | _ => match v.text? with
        | some s => .ok (Text.toUtf8 s, if m = .data then .strict else .lax)
        | none => .error .bytesType

def checkUuid (m : Mode) (v : Value) : Scalar Uuid :=
  match v with
  | .uuid u => .ok (u, .exact)
  | _ =>
    if m = .strict then .error .instanceOf
    else match chars? .uuidParsing v with
      | .error e => .error e
      | .ok (some cs) => match Uuid.ofChars? cs with
        | some u => .ok (u, if m = .data then .exact else .lax)
        | none => .error .uuidParsing
      | .ok none => .error .uuidType

/-- Only finite decimals are accepted. -/
def finiteDecimal (d : Decimal) (e : Exactness) : Scalar Decimal :=
  if d.isFinite then .ok (d, e) else .error .finiteNumber

def decimalOfChars (cs : List Char) (e : Exactness) : Scalar Decimal :=
  match Decimal.ofChars? cs with
  | some d => finiteDecimal d e
  | none => .error .decimalParsing

/-- The text through which a float becomes a decimal. -/
def doubleChars (m : Mode) (x : Double) : List Char :=
  if m = .data then positional.double x else standard.double x

def checkDecimal (m : Mode) (v : Value) : Scalar Decimal :=
  let e : Exactness := if m = .data then .strict else .lax
  match v with
  | .decimal d => finiteDecimal d .exact
  | _ =>
    if m = .strict then .error .instanceOf
    else match v with
      | .int n => .ok (.finite (n < 0) n.natAbs 0, e)
      | .member .integer _ _ (.int n) => .ok (.finite (n < 0) n.natAbs 0, e)
      | .float x => decimalOfChars (doubleChars m x) e
      | _ => match v.text? with
        | some s => decimalOfChars s.toList e
        | none => .error .decimalType

end WorkflowClient.Validation
