import WorkflowClient.Number.Double
import WorkflowClient.Text.Basic

/-! Numbers written in texts: digits, signs, separators and exponents. -/
namespace WorkflowClient.Number

/-- The value of decimal digits, most significant first. -/
def value (ds : List Char) : Nat := Nat.ofDigitChars 10 ds 0

/-- Decimal digits at the front and what follows them. -/
def spanDigits (cs : List Char) : List Char × List Char :=
  (cs.takeWhile Char.isDigit, cs.dropWhile Char.isDigit)

/-- Whether a sign in front is a minus, and what follows it. -/
def sign : List Char → Bool × List Char
  | '-' :: cs => (true, cs)
  | '+' :: cs => (false, cs)
  | cs => (false, cs)

def signed (negative : Bool) (n : Nat) : Int := if negative then -(n : Int) else n

/-- Single underscores between other characters are dropped. -/
def withoutUnderscores (cs : List Char) : Option (List Char) :=
  let rec go : Bool → List Char → Option (List Char)
    | mayFollow, [] => if mayFollow then some [] else none
    | mayFollow, '_' :: rest => if mayFollow then go false rest else none
    | _, c :: rest => (go true rest).map (c :: ·)
  go false cs

/-- A mantissa as its digits and how many of them follow the point. -/
structure Mantissa where
  digits : List Char
  places : Nat

/-- Digits with at most one point, at least one digit, and what follows. -/
def mantissa? (cs : List Char) : Option (Mantissa × List Char) :=
  let (whole, rest) := spanDigits cs
  let (fraction, rest) := match rest with
    | '.' :: more => spanDigits more
    | _ => ([], rest)
  if whole.isEmpty && fraction.isEmpty then none
  else some (⟨whole ++ fraction, fraction.length⟩, rest)

/-- A whole exponent after `e`, zero without one. -/
def exponent? : List Char → Option Int
  | [] => some 0
  | c :: rest =>
    if c = 'e' || c = 'E' then
      let (negative, ds) := sign rest
      if ds.isEmpty || !ds.all Char.isDigit then none else some (signed negative (value ds))
    else none

/-- The double nearest to a mantissa and its power of ten. -/
def Mantissa.double (m : Mantissa) (negative : Bool) (exponent : Int) : Double :=
  Double.ofDecimal negative (value m.digits) (exponent - m.places)

/-- The double that a text without blanks names: digits with point and exponent, an infinity or
a NaN, after an optional sign. -/
def doubleOfPlain? (cs : List Char) : Option Double :=
  let (negative, rest) := sign cs
  let word := rest.map Char.toLower
  if word = ['i', 'n', 'f'] || word = ['i', 'n', 'f', 'i', 'n', 'i', 't', 'y'] then
    some (.infinite negative)
  else if word = ['n', 'a', 'n'] then some .nan
  else match mantissa? rest with
    | none => none
    | some (m, rest) => (exponent? rest).map (m.double negative)

/-- The double that a text names. White space around it and single underscores inside are
allowed. -/
def double? (cs : List Char) : Option Double :=
  let cs := Text.trim Text.isWhiteSpace cs
  match doubleOfPlain? cs with
  | some x => some x
  | none => (withoutUnderscores cs).bind doubleOfPlain?

/-- What a text says about an integer. -/
inductive IntegerReading
  | integer (n : Int)
  | tooLong
  | malformed
deriving DecidableEq

/-- The most digits an integer may be written with. -/
def digitLimit : Nat := 4300

/-- An integer that can be written within the digit limit. -/
def writable (n : Int) : Bool := decide (n.natAbs < Nat.pow 10 digitLimit)

/-- What is said of an integer beyond the digit limit, with a word on its digits if they are
known. -/
def limitText (digits : Option Nat) : String :=
  let known := match digits with
    | some n => ": value has " ++ toString n ++ " digits"
    | none => ""
  "Exceeds the limit (" ++ toString digitLimit ++ " digits) for integer string conversion" ++
    known ++ "; use sys.set_int_max_str_digits() to increase the limit"

/-- A text without blanks as an integer: an optional sign, digits with single underscores inside,
and perhaps a fraction of zeros. -/
def integer (cs : List Char) : IntegerReading :=
  let (negative, rest) := sign cs
  let whole := rest.takeWhile (· ≠ '.')
  let fraction := rest.dropWhile (· ≠ '.')
  let wholeNumber := match fraction with
    | [] => true
    | _ :: zeros => !zeros.isEmpty && zeros.all (· = '0')
  match withoutUnderscores whole with
  | some ds =>
    if !wholeNumber || ds.isEmpty || !ds.all Char.isDigit then .malformed
    else if digitLimit < ds.length then .tooLong
    else .integer (signed negative (value ds))
  | none => .malformed

end WorkflowClient.Number
