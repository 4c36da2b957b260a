import WorkflowClient.Text.Printable

/-! Quoted texts: what is escaped, and which quotation mark encloses. -/
namespace WorkflowClient.Text

/-- `n` in `width` lower-case hexadecimal digits or more. -/
def hex (width n : Nat) : List Char :=
  let ds := Nat.toDigits 16 n
  List.replicate (width - ds.length) '0' ++ ds

/-- A text without an apostrophe, or with both marks, stands between apostrophes. -/
def quotationMark (cs : List Char) : Char :=
  if cs.contains '\'' && !cs.contains '"' then '"' else '\''

/-- One character between `mark`s. -/
def escape (mark c : Char) : List Char :=
  if c = mark || c = '\\' then ['\\', c]
  else if c = '\n' then ['\\', 'n']
  else if c = '\r' then ['\\', 'r']
  else if c = '\t' then ['\\', 't']
  else if isPrintable c then [c]
  else if c.toNat < 0x100 then '\\' :: 'x' :: hex 2 c.toNat
  else if c.toNat < 0x10000 then '\\' :: 'u' :: hex 4 c.toNat
  else '\\' :: 'U' :: hex 8 c.toNat

def quotedChars (cs : List Char) : List Char :=
  let mark := quotationMark cs
  mark :: cs.flatMap (escape mark) ++ [mark]

/-- `s` between quotation marks, unprintable characters escaped. -/
def quoted (s : String) : String := String.ofList (quotedChars s.toList)

/-- One octet between `mark`s: only printable ASCII stands for itself. -/
def escapeOctet (mark : Char) (b : UInt8) : List Char :=
  let c := Char.ofNat b.toNat
  if b < 0x7F then escape mark c else '\\' :: 'x' :: hex 2 b.toNat

def octetsMark (bs : List UInt8) : Char := quotationMark (bs.map fun b => Char.ofNat b.toNat)

/-- Octets in quotation marks after the letter `b`, each written by `escape`. -/
def quotedOctetsBy (escape : UInt8 → List Char) (bs : List UInt8) : String :=
  String.ofList ('b' :: octetsMark bs :: bs.flatMap escape ++ [octetsMark bs])

def quotedOctets (bs : List UInt8) : String := quotedOctetsBy (escapeOctet (octetsMark bs)) bs

/-- Octets that are open to change escape the apostrophe between any marks. -/
def quotedMutableOctets (bs : List UInt8) : String := quotedOctetsBy (escapeOctet '\'') bs

/-- Quoted texts in brackets, as a list of names is shown. -/
def quotedList (names : List String) : String :=
  "[" ++ String.intercalate ", " (names.map quoted) ++ "]"

end WorkflowClient.Text
