import WorkflowClient.Text.Quoted

/-! Identifiers of 128 bits. -/
namespace WorkflowClient

structure Uuid where
  value : Nat
  value_lt : value < Nat.pow 2 128
deriving DecidableEq

namespace Uuid

/-- The value of a hexadecimal digit in either case. -/
def hexDigit? (c : Char) : Option Nat :=
  let n := c.toNat
  if 0x30 ≤ n ∧ n ≤ 0x39 then some (n - 0x30)
  else if 0x61 ≤ n ∧ n ≤ 0x66 then some (n - 0x61 + 10)
  else if 0x41 ≤ n ∧ n ≤ 0x46 then some (n - 0x41 + 10)
  else none

/-- The value of hexadecimal digits that follow `value`. -/
def readHex (value : Nat) : List Char → Option Nat
  | [] => some value
  | c :: rest => match hexDigit? c with
    | some d => readHex (value * 16 + d) rest
    | none => none

/-- Thirty-two hexadecimal digits. -/
def ofHex? (cs : List Char) : Option Uuid :=
  if cs.length = 32 then
    match readHex 0 cs with
    | some n => if h : n < Nat.pow 2 128 then some ⟨n, h⟩ else none
    | none => none
  else none

/-- Digits in groups of eight, four, four, four and twelve, with hyphens between them. -/
def ofHyphenated? (cs : List Char) : Option Uuid :=
  let groups := [cs.take 8, (cs.drop 9).take 4, (cs.drop 14).take 4, (cs.drop 19).take 4,
    cs.drop 24]
  let hyphens := [cs[8]?, cs[13]?, cs[18]?, cs[23]?]
  if cs.length = 36 ∧ hyphens = List.replicate 4 (some '-') then ofHex? groups.flatten else none

/-- The identifier that a text names: bare digits, groups, groups in braces, or groups after the
name of their space. -/
def ofChars? (cs : List Char) : Option Uuid :=
  match cs with
  | '{' :: rest =>
    if rest.getLast? = some '}' then ofHyphenated? rest.dropLast else none
  | 'u' :: 'r' :: 'n' :: ':' :: 'u' :: 'u' :: 'i' :: 'd' :: ':' :: rest => ofHyphenated? rest
  | _ => if cs.length = 32 then ofHex? cs else ofHyphenated? cs

/-- Lower-case digits in groups of eight, four, four, four and twelve. -/
def chars (u : Uuid) : List Char :=
  let ds := Text.hex 32 u.value
  ds.take 8 ++ '-' :: (ds.drop 8).take 4 ++ '-' :: (ds.drop 12).take 4 ++
    '-' :: (ds.drop 16).take 4 ++ '-' :: ds.drop 20

def text (u : Uuid) : String := String.ofList u.chars

end Uuid
end WorkflowClient
