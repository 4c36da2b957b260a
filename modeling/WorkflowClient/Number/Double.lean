/-! Binary floating point numbers of 64 bits, exactly. -/
namespace WorkflowClient.Number

/-- A significand and a power of two that stand for a double in the one agreed way: the significand
has its top bit unless the exponent is the least one. -/
def Canonical (significand : Nat) (exponent : Int) : Prop :=
  significand < Nat.pow 2 53 ∧ -1074 ≤ exponent ∧ exponent ≤ 971 ∧
    (Nat.pow 2 52 ≤ significand ∨ exponent = -1074)

instance (m : Nat) (e : Int) : Decidable (Canonical m e) := by
  unfold Canonical
  infer_instance

/-- A double; a finite one is `significand * 2 ^ exponent` with a sign. -/
inductive Double
  | nan
  | infinite (negative : Bool)
  | finite (negative : Bool) (significand : Nat) (exponent : Int)
      (canonical : Canonical significand exponent)
deriving DecidableEq

namespace Double

theorem canonical_zero : Canonical 0 (-1074) := by decide

def zero (negative : Bool) : Double := .finite negative 0 (-1074) canonical_zero

/-- The double of a significand and exponent within reach; infinity above the greatest. -/
def ofScaled (negative : Bool) (significand : Nat) (exponent : Int) : Double :=
  if h : Canonical significand exponent then .finite negative significand exponent h
  else if 971 < exponent then .infinite negative
  else .nan

/-- `numerator / denominator` to the nearest natural, a half to the even one. -/
def divideHalfEven (numerator denominator : Nat) : Nat :=
  let q := numerator / denominator
  let r := numerator % denominator
  if 2 * r < denominator then q
  else if denominator < 2 * r then q + 1
  else q + q % 2

/-- The power of two by which a quotient of about `2 ^ bits` is divided so that 53 bits remain,
or the least exponent. -/
def exponentFor (numerator denominator : Nat) : Int :=
  let e : Int := (Nat.log2 numerator : Int) - Nat.log2 denominator - 52
  let tooGreat := numerator * Nat.pow 2 (-e).toNat < denominator * Nat.pow 2 (52 + e.toNat)
  max (-1074) (if tooGreat then e - 1 else e)

/-- The double nearest to a quotient, ties going to the even significand. -/
def ofRatio (negative : Bool) (numerator denominator : Nat) : Double :=
  if numerator = 0 then zero negative
  else
    let e := exponentFor numerator denominator
    let m := divideHalfEven (numerator * Nat.pow 2 (-e).toNat) (denominator * Nat.pow 2 e.toNat)
    if m = Nat.pow 2 53 then ofScaled negative (Nat.pow 2 52) (e + 1) else ofScaled negative m e

/-- The double nearest to `digits * 10 ^ exponent`. Exponents whose value is beyond every
double are settled without their power of ten. -/
def ofDecimal (negative : Bool) (digits : Nat) (exponent : Int) : Double :=
  if digits = 0 then zero negative
  else if 310 < exponent then .infinite negative
  else if exponent + (Nat.log2 digits / 3 + 1 : Nat) < -330 then zero negative
  else if 0 ≤ exponent then ofRatio negative (digits * Nat.pow 10 exponent.toNat) 1
  else ofRatio negative digits (Nat.pow 10 (-exponent).toNat)

def ofInt (n : Int) : Double := ofRatio (n < 0) n.natAbs 1

def isFinite : Double → Bool
  | .finite .. => true
  | _ => false

def isNegative : Double → Bool
  | .nan => false
  | .infinite s => s
  | .finite s .. => s

/-- A finite double as a quotient of integers. -/
def ratio? : Double → Option (Int × Nat)
  | .finite s m e _ =>
    let n : Int := (m * Nat.pow 2 e.toNat : Nat)
    some (if s then -n else n, Nat.pow 2 (-e).toNat)
  | _ => none

/-- The integer that a double is, if it is one. -/
def int? (x : Double) : Option Int :=
  match x.ratio? with
  | some (n, d) => if n % d = 0 then some (n / d) else none
  | none => none

/-- Numeric equality: zeros are equal whatever their sign, and nothing equals a NaN. -/
def equals : Double → Double → Bool
  | .infinite s, .infinite t => s == t
  | .finite s m e _, .finite t n f _ => (m = n ∧ e = f ∧ s = t) || (m = 0 ∧ n = 0)
  | _, _ => false

/-- Below zero or zero itself; never for a NaN. -/
def nonPositive : Double → Bool
  | .nan => false
  | .infinite s => s
  | .finite s m .. => s || m = 0

def isNaN (x : Double) : Bool := x = .nan

end Double
end WorkflowClient.Number
