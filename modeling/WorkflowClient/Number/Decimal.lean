import WorkflowClient.Number.Layout
import WorkflowClient.Number.Reading

/-! Decimal numbers that keep the digits and the exponent they were written with. -/
namespace WorkflowClient.Number

inductive Decimal
  | finite (negative : Bool) (coefficient : Nat) (exponent : Int)
  | infinite (negative : Bool)
  | nan (negative signaling : Bool) (payload : Nat)
deriving DecidableEq

/-- The zeros of the scripts whose ten digits follow each other, in ascending order. -/
def digitZeros : List Nat :=
  [0x30, 0x660, 0x6f0, 0x7c0, 0x966, 0x9e6, 0xa66, 0xae6, 0xb66, 0xbe6, 0xc66, 0xce6, 0xd66,
    0xde6, 0xe50, 0xed0, 0xf20, 0x1040, 0x1090, 0x17e0, 0x1810, 0x1946, 0x19d0, 0x1a80, 0x1a90,
    0x1b50, 0x1bb0, 0x1c40, 0x1c50, 0xa620, 0xa8d0, 0xa900, 0xa9d0, 0xa9f0, 0xaa50, 0xabf0,
    0xff10, 0x104a0, 0x10d30, 0x11066, 0x110f0, 0x11136, 0x111d0, 0x112f0, 0x11450, 0x114d0,
    0x11650, 0x116c0, 0x11730, 0x118e0, 0x11950, 0x11c50, 0x11d50, 0x11da0, 0x16a60, 0x16ac0,
    0x16b50, 0x1d7ce, 0x1d7d8, 0x1d7e2, 0x1d7ec, 0x1d7f6, 0x1e140, 0x1e2f0, 0x1e950, 0x1fbf0]

/-- The ASCII digit of the same value, for a digit of any script. -/
def asciiDigit (c : Char) : Char :=
  match digitZeros.find? fun z => z ≤ c.toNat && c.toNat < z + 10 with
  | some z => Char.ofNat (0x30 + (c.toNat - z))
  | none => c

namespace Decimal

/-- A word for infinity or a NaN, without its sign. -/
def word? (negative : Bool) (cs : List Char) : Option Decimal :=
  if cs = ['i', 'n', 'f'] || cs = ['i', 'n', 'f', 'i', 'n', 'i', 't', 'y'] then
    some (.infinite negative)
  else
    let (signaling, rest) := match cs with
      | 's' :: rest => (true, rest)
      | _ => (false, cs)
    match rest with
    | 'n' :: 'a' :: 'n' :: ds =>
      if ds.all Char.isDigit then some (.nan negative signaling (value ds)) else none
    | _ => none

/-- The decimal that a text names. Blanks around it and underscores are dropped, and the digits may
be of any script. -/
def ofChars? (cs : List Char) : Option Decimal :=
  let cs := ((Text.trim Text.isBlank cs).filter (· ≠ '_')).map asciiDigit
  let (negative, rest) := sign cs
  match word? negative (rest.map Char.toLower) with
  | some d => some d
  | none => match mantissa? rest with
    | none => none
    | some (m, rest) =>
      (exponent? rest).map fun e => .finite negative (value m.digits) (e - m.places)

/-- Digits in plain notation unless the exponent is positive or the number is below a
millionth. -/
def magnitudeText (coefficient : Nat) (exponent : Int) : List Char :=
  let ds := natText coefficient
  let point : Int := exponent + ds.length
  if exponent ≤ 0 ∧ -6 < point then
    if point ≤ 0 then '0' :: '.' :: (List.replicate (-point).toNat '0' ++ ds)
    else if exponent = 0 then ds
    else ds.take point.toNat ++ '.' :: ds.drop point.toNat
  else
    let lead := match ds with
      | [d] => [d]
      | d :: more => d :: '.' :: more
      | [] => []
    let e := point - 1
    if e = 0 then lead
    else lead ++ 'E' :: (if e < 0 then '-' else '+') :: natText e.natAbs

def chars : Decimal → List Char
  | .finite s c e => (if s then ['-'] else []) ++ magnitudeText c e
  | .infinite s => (if s then ['-'] else []) ++ ['I', 'n', 'f', 'i', 'n', 'i', 't', 'y']
  | .nan s q p =>
    (if s then ['-'] else []) ++ (if q then ['s'] else []) ++ ['N', 'a', 'N'] ++
      (if p = 0 then [] else natText p)

def text (d : Decimal) : String := String.ofList d.chars

def isFinite : Decimal → Bool
  | .finite .. => true
  | _ => false

end Decimal

/-- A rational of a finite decimal expansion in its one normal form: no zero at the end of the
digits, and zero without sign or exponent. -/
structure Exact where
  negative : Bool
  digits : Nat
  exponent : Int
deriving DecidableEq

namespace Exact

def normal (negative : Bool) (digits : Nat) (exponent : Int) : Exact :=
  if digits = 0 then ⟨false, 0, 0⟩
  else
    let all := natText digits
    let ds := stripZeros all
    ⟨negative, value ds, exponent + (all.length - ds.length : Nat)⟩

def ofInt (n : Int) : Exact := normal (n < 0) n.natAbs 0

def ofDouble? : Double → Option Exact
  | .finite s m e _ =>
    let x := exactDigits m e
    some (normal s x.digits x.exponent)
  | _ => none

def ofDecimal? : Decimal → Option Exact
  | .finite s c e => some (normal s c e)
  | _ => none

/-- The integer it is, if it is one. -/
def int? (x : Exact) : Option Int :=
  if 0 ≤ x.exponent then some (signed x.negative (x.digits * Nat.pow 10 x.exponent.toNat)) else none

end Exact

/-- The double nearest to a decimal. -/
def Decimal.toDouble : Decimal → Double
  | .finite s c e => Double.ofDecimal s c e
  | .infinite s => .infinite s
  | .nan .. => .nan

end WorkflowClient.Number
