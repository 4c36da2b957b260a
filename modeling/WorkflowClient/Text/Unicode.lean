/-! Characters from octets: UTF-8, UTF-16 and UTF-32, and the choice between them. -/
namespace WorkflowClient.Text

/-- The code point `n`, if it is one and no surrogate. -/
def scalar? (n : Nat) : Option Char :=
  if n.isValidChar then some (Char.ofNat n) else none

/-- Octets of UTF-8 from left to right: `missing` octets are still to come of a character whose
bits so far are `bits` and which may not be below `least`. -/
def utf8From (missing bits least : Nat) : List UInt8 → Option (List Char)
  | [] => if missing = 0 then some [] else none
  | b :: rest =>
    let n := b.toNat
    match missing with
    | 0 =>
      if n < 0x80 then (utf8From 0 0 0 rest).map (Char.ofNat n :: ·)
      else if 0xC2 ≤ n ∧ n < 0xE0 then utf8From 1 (n - 0xC0) 0x80 rest
      else if 0xE0 ≤ n ∧ n < 0xF0 then utf8From 2 (n - 0xE0) 0x800 rest
      else if 0xF0 ≤ n ∧ n < 0xF5 then utf8From 3 (n - 0xF0) 0x10000 rest
      else none
    | 1 =>
      if 0x80 ≤ n ∧ n < 0xC0 then
        let code := bits * 64 + (n - 0x80)
        if code < least then none
        else match scalar? code with
          | some c => (utf8From 0 0 0 rest).map (c :: ·)
          | none => none
      else none
    | missing + 2 =>
      if 0x80 ≤ n ∧ n < 0xC0 then utf8From (missing + 1) (bits * 64 + (n - 0x80)) least rest
      else none

/-- The text of UTF-8 octets, if they are one. -/
def utf8? (bs : List UInt8) : Option String := (utf8From 0 0 0 bs).map String.ofList

/-- The least number of octets for one character, all but the first of which hold six bits. -/
def utf8Octets (c : Char) : List UInt8 :=
  let n := c.toNat
  let tail (k : Nat) : UInt8 := UInt8.ofNat (0x80 + n / Nat.pow 64 k % 64)
  if n < 0x80 then [UInt8.ofNat n]
  else if n < 0x800 then [UInt8.ofNat (0xC0 + n / 64), tail 0]
  else if n < 0x10000 then [UInt8.ofNat (0xE0 + n / 4096), tail 1, tail 0]
  else [UInt8.ofNat (0xF0 + n / 262144), tail 2, tail 1, tail 0]

def toUtf8 (s : String) : List UInt8 := s.toList.flatMap utf8Octets

/-- Which of two octets is the more significant. -/
inductive Endian
  | big
  | little
deriving DecidableEq

/-- Numbers of two octets each. -/
def pairs (e : Endian) : List UInt8 → Option (List Nat)
  | [] => some []
  | a :: b :: rest =>
    let n := match e with
      | .big => a.toNat * 256 + b.toNat
      | .little => b.toNat * 256 + a.toNat
    (pairs e rest).map (n :: ·)
  | _ => none

/-- Characters from units of sixteen bits; `high` is a leading surrogate that waits for its
second half. -/
def utf16From (high : Option Nat) : List Nat → Option (List Char)
  | [] => match high with
    | none => some []
    | some _ => none
  | u :: rest => match high with
    | some h =>
      if 0xDC00 ≤ u ∧ u < 0xE000 then
        match scalar? (0x10000 + (h - 0xD800) * 0x400 + (u - 0xDC00)) with
        | some c => (utf16From none rest).map (c :: ·)
        | none => none
      else none
    | none =>
      if 0xD800 ≤ u ∧ u < 0xDC00 then utf16From (some u) rest
      else match scalar? u with
        | some c => (utf16From none rest).map (c :: ·)
        | none => none

/-- Characters from pairs of units of sixteen bits, the more significant one first or last. -/
def utf32From (e : Endian) : List Nat → Option (List Char)
  | [] => some []
  | u :: v :: rest =>
    let n := match e with
      | .big => u * 65536 + v
      | .little => v * 65536 + u
    match scalar? n with
    | some c => (utf32From e rest).map (c :: ·)
    | none => none
  | _ => none

def utf16? (e : Endian) (bs : List UInt8) : Option String :=
  (pairs e bs).bind fun us => (utf16From none us).map String.ofList

def utf32? (e : Endian) (bs : List UInt8) : Option String :=
  (pairs e bs).bind fun us => (utf32From e us).map String.ofList

/-- The text of a document whose first character is ASCII. A byte order mark tells the encoding and
is dropped; otherwise the place of the zero octets among the first four does; without any it is
UTF-8. -/
def document? (bs : List UInt8) : Option String :=
  match bs with
  | 0x00 :: 0x00 :: 0xFE :: 0xFF :: rest => utf32? .big rest
  | 0xFF :: 0xFE :: 0x00 :: 0x00 :: rest => utf32? .little rest
  | 0xFE :: 0xFF :: rest => utf16? .big rest
  | 0xFF :: 0xFE :: rest => utf16? .little rest
  | 0xEF :: 0xBB :: 0xBF :: rest => utf8? rest
  | a :: b :: c :: d :: _ =>
    if a = 0 then if b = 0 then utf32? .big bs else utf16? .big bs
    else if b = 0 then if c = 0 && d = 0 then utf32? .little bs else utf16? .little bs
    else utf8? bs
  | [a, b] =>
    if a = 0 then utf16? .big bs
    else if b = 0 then utf16? .little bs
    else utf8? bs
  | _ => utf8? bs

end WorkflowClient.Text
