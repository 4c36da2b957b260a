import WorkflowClient.Number.Double

/-! Numbers as texts: their decimal digits, and how these are laid out. -/
namespace WorkflowClient.Number

/-! The shortest decimal digits that read back as a double. -/

/-- `digits * 10 ^ exponent`. -/
structure Scientific where
  digits : Nat
  exponent : Int
deriving DecidableEq

/-- A positive double's size as a quotient. -/
def magnitude (significand : Nat) (exponent : Int) : Nat × Nat :=
  (significand * Nat.pow 2 exponent.toNat, Nat.pow 2 (-exponent).toNat)

/-- `num / den` in units of `10 ^ p`. -/
def inUnits (num den : Nat) (p : Int) : Nat × Nat :=
  (num * Nat.pow 10 (-p).toNat, den * Nat.pow 10 p.toNat)

/-- The number `k` with `10 ^ (k - 1) ≤ num / den < 10 ^ k`. -/
def decimalPlace (num den : Nat) : Int :=
  let bits : Int := (Nat.log2 num : Int) - Nat.log2 den
  let k := Int.fdiv (bits * 30103) 100000 + 1
  let below (j : Int) : Bool := let (a, b) := inUnits num den j; a < b
  if below (k - 1) then k - 1 else if below k then k else k + 1

/-- The neighbours of a double on the grid of multiples of `10 ^ p` that read back as it, the
nearer one first, of two as near the even one. -/
def readingBack (m : Nat) (e p : Int) : Option Scientific :=
  let (num, den) := magnitude m e
  let (a, b) := inUnits num den p
  let low := a / b
  let readsBack (c : Nat) : Bool := Double.ofDecimal false c p = Double.ofScaled false m e
  let upFirst := b < 2 * (a % b) || (2 * (a % b) = b && low % 2 = 1)
  let (first, second) := if upFirst then (low + 1, low) else (low, low + 1)
  if readsBack first then some ⟨first, p⟩
  else if readsBack second then some ⟨second, p⟩
  else none

/-- Grids of `count` more digits and finer, in order, starting at `10 ^ p`. -/
def searchGrids (m : Nat) (e : Int) : Nat → Int → Option Scientific
  | 0, _ => none
  | count + 1, p => match readingBack m e p with
    | some s => some s
    | none => searchGrids m e count (p - 1)

/-- A double's own decimal expansion, which ends because its denominator is a power of two. -/
def exactDigits (m : Nat) (e : Int) : Scientific :=
  if 0 ≤ e then ⟨m * Nat.pow 2 e.toNat, 0⟩ else ⟨m * Nat.pow 5 (-e).toNat, e⟩

/-- Of the decimals with the fewest digits that read back as `m * 2 ^ e` the nearest. Seventeen
digits always suffice; the full expansion stands behind them so that no proof of that is needed
here. -/
def shortest (m : Nat) (e : Int) : Scientific :=
  if m = 0 then ⟨0, 0⟩
  else
    let (num, den) := magnitude m e
    (searchGrids m e 17 (decimalPlace num den - 1)).getD (exactDigits m e)

/-! How decimal digits are laid out as the text of a number. -/

/-- Where positional notation ends and how its whole numbers show. -/
structure Layout where
  /-- The least and the greatest power of ten of a leading digit that is written positionally. -/
  least : Option Int
  greatest : Option Int
  /-- A whole number keeps `.0`. -/
  keepsPoint : Bool

def natText (n : Nat) : List Char := Nat.toDigits 10 n

def intText (n : Int) : List Char :=
  if n < 0 then '-' :: natText n.natAbs else natText n.natAbs

/-- A sign and two digits or more. -/
def exponentText (n : Int) : List Char :=
  let ds := natText n.natAbs
  (if n < 0 then '-' else '+') :: (List.replicate (2 - ds.length) '0' ++ ds)

/-- Digits without the zeros at their end. -/
def stripZeros (ds : List Char) : List Char := (ds.reverse.dropWhile (· = '0')).reverse

/-- Digits whose first one counts `10 ^ lead`, as the layout writes them. -/
def Layout.write (l : Layout) (ds : List Char) (lead : Int) : List Char :=
  let inside := (l.least.all (· ≤ lead)) && (l.greatest.all (lead ≤ ·))
  if inside then
    if lead < 0 then '0' :: '.' :: (List.replicate (-lead - 1).toNat '0' ++ ds)
    else
      let n := lead.toNat + 1
      let whole := ds.take n ++ List.replicate (n - ds.length) '0'
      match ds.drop n with
      | [] => if l.keepsPoint then whole ++ ['.', '0'] else whole
      | fraction => whole ++ '.' :: fraction
  else match ds with
    | [] => []
    | [d] => d :: 'e' :: exponentText lead
    | d :: more => d :: '.' :: more ++ 'e' :: exponentText lead

/-- A finite magnitude through its shortest digits; zero is the digit zero. -/
def Layout.magnitude (l : Layout) (m : Nat) (e : Int) : List Char :=
  let s := shortest m e
  let all := natText s.digits
  let ds := stripZeros all
  if ds.isEmpty then l.write ['0'] 0 else l.write ds (s.exponent + all.length - 1)

def Layout.double (l : Layout) : Double → List Char
  | .nan => ['n', 'a', 'n']
  | .infinite s => (if s then ['-'] else []) ++ ['i', 'n', 'f']
  | .finite s m e _ => (if s then ['-'] else []) ++ l.magnitude m e

/-- Numbers as texts show them: positional from `0.0001` up to, but not including, `10 ^ 16`, and
always with a point or an exponent. -/
def standard : Layout := ⟨some (-4), some 15, true⟩

/-- Numbers without exponent; a whole number has no point. -/
def positional : Layout := ⟨none, none, false⟩

def Double.text (x : Double) : String := String.ofList (standard.double x)

/-! Numbers rounded to so many places or digits, a half to the even neighbour. -/

def zeros (n : Nat) : List Char := List.replicate n '0'

/-- Digits with a point before the last `places` of them. -/
def pointed (places : Nat) (ds : List Char) : List Char :=
  let ds := zeros (places + 1 - ds.length) ++ ds
  let whole := ds.take (ds.length - places)
  if places = 0 then whole else whole ++ '.' :: ds.drop (ds.length - places)

/-- `numerator / denominator` with so many places. -/
def fixedPlaces (places numerator denominator : Nat) : List Char :=
  pointed places (natText (Double.divideHalfEven (numerator * Nat.pow 10 places) denominator))

/-- The power of ten that the first digit of a quotient other than zero counts. -/
def leadOf (numerator denominator : Nat) : Int :=
  let k : Int := (natText numerator).length - (natText denominator).length
  if numerator * Nat.pow 10 (-k).toNat < denominator * Nat.pow 10 k.toNat then k - 1 else k

/-- The first `digits + 1` digits of a quotient, and what the first of them counts. -/
def leadingDigits (digits numerator denominator : Nat) : Nat × Int :=
  if numerator = 0 then (0, 0)
  else
    let lead := leadOf numerator denominator
    let shift := (digits : Int) - lead
    let n := Double.divideHalfEven (numerator * Nat.pow 10 shift.toNat)
      (denominator * Nat.pow 10 (-shift).toNat)
    if n = Nat.pow 10 (digits + 1) then (Nat.pow 10 digits, lead + 1) else (n, lead)

/-- A quotient with one digit before the point, so many after it, and an exponent. -/
def scientificPlaces (places numerator denominator : Nat) : List Char :=
  let (n, lead) := leadingDigits places numerator denominator
  pointed places (natText n) ++ 'e' :: exponentText lead

/-- Without the zeros at the end of a fraction, and without a point that nothing follows. -/
def stripFraction (cs : List Char) : List Char :=
  if cs.contains '.' then
    match stripZeros cs with
    | ds => if ds.getLast? = some '.' then ds.dropLast else ds
  else cs

/-- So many digits in all, positional unless the exponent is below minus four or too great for
them. -/
def generalDigits (keepZeros : Bool) (digits numerator denominator : Nat) : List Char :=
  let p := max digits 1
  let (n, lead) := leadingDigits (p - 1) numerator denominator
  let strip := if keepZeros then id else stripFraction
  if -4 ≤ lead ∧ lead < p then
    strip (fixedPlaces (p - 1 - lead).toNat numerator denominator)
  else strip (pointed (p - 1) (natText n)) ++ 'e' :: exponentText lead

end WorkflowClient.Number
