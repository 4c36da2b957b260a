import WorkflowClient.Json.Basic
import WorkflowClient.Number.Reading
import WorkflowClient.Uuid

/-! Plain data from its text. The first fault from the left is the one reported. -/
namespace WorkflowClient.Json

inductive ReadError
  | malformed
  | integerTooLong (digits : Nat)
  | tooDeep
deriving DecidableEq

/-- What was read, and the text after it. -/
abbrev Read (α : Type) := Except ReadError (α × List Char)

def isBlank (c : Char) : Bool := c = ' ' || c = '\t' || c = '\n' || c = '\r'

def skipBlanks (cs : List Char) : List Char := cs.dropWhile isBlank

/-- A unit of sixteen bits in four hexadecimal digits. -/
def unit? (a b c d : Char) : Option Nat := Uuid.readHex 0 [a, b, c, d]

/-- The character of a one-letter escape. -/
def shortEscape? (c : Char) : Option Char :=
  if c = '"' || c = '\\' || c = '/' then some c
  else if c = 'n' then some '\n'
  else if c = 'r' then some '\r'
  else if c = 't' then some '\t'
  else if c = 'b' then some '\x08'
  else if c = 'f' then some '\x0c'
  else none

/-- The characters up to the closing quotation mark, and the text after it. Surrogates have to come
in pairs. -/
def stringBody : List Char → Option (List Char × List Char)
  | [] => none
  | '"' :: rest => some ([], rest)
  | '\\' :: 'u' :: a :: b :: c :: d :: rest =>
    match unit? a b c d with
    | none => none
    | some n =>
      if n.isValidChar then (stringBody rest).map fun r => (Char.ofNat n :: r.1, r.2)
      else match rest with
        | '\\' :: 'u' :: e :: f :: g :: h :: rest =>
          match unit? e f g h with
          | none => none
          | some m =>
            if n < 0xDC00 ∧ 0xDC00 ≤ m ∧ m < 0xE000 then
              (stringBody rest).map fun r =>
                (Char.ofNat (0x10000 + (n - 0xD800) * 0x400 + (m - 0xDC00)) :: r.1, r.2)
            else none
        | _ => none
  | '\\' :: e :: rest =>
    match shortEscape? e with
    | none => none
    | some c => (stringBody rest).map fun r => (c :: r.1, r.2)
  | c :: rest =>
    if c.toNat < 0x20 || c = '\\' then none
    else (stringBody rest).map fun r => (c :: r.1, r.2)

/-- A name or text after its opening quotation mark. -/
def readString (cs : List Char) : Read String :=
  match stringBody cs with
  | some (body, rest) => .ok (String.ofList body, rest)
  | none => .error .malformed

/-- The fraction at the front, if there is one, and the text after it. -/
def fraction (cs : List Char) : Option (List Char) × List Char :=
  match cs with
  | '.' :: more =>
    let (ds, rest) := Number.spanDigits more
    if ds.isEmpty then (none, cs) else (some ds, rest)
  | _ => (none, cs)

/-- The exponent at the front, if there is one, and the text after it. -/
def exponent (cs : List Char) : Option Int × List Char :=
  match cs with
  | c :: more =>
    if c = 'e' || c = 'E' then
      let (negative, more) := Number.sign more
      let (ds, rest) := Number.spanDigits more
      if ds.isEmpty then (none, cs) else (some (Number.signed negative (Number.value ds)), rest)
    else (none, cs)
  | [] => (none, cs)

/-- A number after its sign: no needless zero in front, and an integer unless it has a fraction or
an exponent. -/
def readNumber (negative : Bool) (cs : List Char) : Read Json :=
  let (ds, rest) := Number.spanDigits cs
  match ds with
  | [] => .error .malformed
  | d :: more =>
    if d = '0' ∧ !more.isEmpty then .error .malformed
    else
      let (f, rest) := fraction rest
      let (e, rest) := exponent rest
      match f, e with
      | none, none =>
        if Number.digitLimit < ds.length then .error (.integerTooLong ds.length)
        else .ok (.int (Number.signed negative (Number.value ds)), rest)
      | _, _ =>
        let m : Number.Mantissa := ⟨ds ++ f.getD [], (f.getD []).length⟩
        .ok (.float (m.double negative (e.getD 0)), rest)

def nanWord : List Char := ['N', 'a', 'N']

def infinityWord : List Char := ['I', 'n', 'f', 'i', 'n', 'i', 't', 'y']

/-- The words that stand for a value. -/
def words : List (List Char × Json) :=
  [(['n', 'u', 'l', 'l'], .null), (['t', 'r', 'u', 'e'], .bool true),
    (['f', 'a', 'l', 's', 'e'], .bool false), (nanWord, .float .nan),
    (infinityWord, .float (.infinite false)), ('-' :: infinityWord, .float (.infinite true))]

def readWord (cs : List Char) : List (List Char × Json) → Option (Json × List Char)
  | [] => none
  | (w, j) :: more => if w.isPrefixOf cs then some (j, cs.drop w.length) else readWord cs more

/-- A word or a number. -/
def readScalar (cs : List Char) : Read Json :=
  match readWord cs words with
  | some r => .ok r
  | none => match cs with
    | '-' :: rest => readNumber true rest
    | _ => readNumber false cs

/-- One level further down, if the limit allows it. Only containers that hold something count. -/
def deeper : Option Nat → Except ReadError (Option Nat)
  | none => .ok none
  | some 0 => .error .tooDeep
  | some (n + 1) => .ok (some n)

mutual

/-- The value at the front of a text without blanks before it. Containers that hold something may
nest `depth` deep. -/
def readValue : Nat → Option Nat → List Char → Read Json
  | 0, _, _ => .error .malformed
  | fuel + 1, depth, cs =>
    match cs with
    | '"' :: rest => match readString rest with
      | .ok (s, rest) => .ok (.str s, rest)
      | .error e => .error e
    | '[' :: rest => match skipBlanks rest with
      | ']' :: rest => .ok (.array [], rest)
      | rest => match deeper depth with
        | .error e => .error e
        | .ok depth => match readItems fuel depth rest with
          | .ok (items, rest) => .ok (.array items, rest)
          | .error e => .error e
    | '{' :: rest => match skipBlanks rest with
      | '}' :: rest => .ok (.object [], rest)
      | rest => match deeper depth with
        | .error e => .error e
        | .ok depth => match readMembers fuel depth rest with
          | .ok (members, rest) => .ok (.object members, rest)
          | .error e => .error e
    | _ => readScalar cs

/-- Items up to the closing bracket. -/
def readItems : Nat → Option Nat → List Char → Read (List Json)
  | 0, _, _ => .error .malformed
  | fuel + 1, depth, cs =>
    match readValue fuel depth cs with
    | .error e => .error e
    | .ok (j, rest) => match skipBlanks rest with
      | ']' :: rest => .ok ([j], rest)
      | ',' :: rest => match readItems fuel depth (skipBlanks rest) with
        | .ok (items, rest) => .ok (j :: items, rest)
        | .error e => .error e
      | _ => .error .malformed

/-- Members up to the closing brace. -/
def readMembers : Nat → Option Nat → List Char → Read (List (String × Json))
  | 0, _, _ => .error .malformed
  | fuel + 1, depth, cs =>
    match cs with
    | '"' :: rest => match readString rest with
      | .error e => .error e
      | .ok (name, rest) => match skipBlanks rest with
        | ':' :: rest => match readValue fuel depth (skipBlanks rest) with
          | .error e => .error e
          | .ok (j, rest) => match skipBlanks rest with
            | '}' :: rest => .ok ([(name, j)], rest)
            | ',' :: rest => match readMembers fuel depth (skipBlanks rest) with
              | .ok (members, rest) => .ok ((name, j) :: members, rest)
              | .error e => .error e
            | _ => .error .malformed
        | _ => .error .malformed
    | _ => .error .malformed

end

/-- The data of a text that says nothing else. Two steps for every character are enough. -/
def read (depth : Option Nat) (text : String) : Except ReadError Json :=
  let cs := skipBlanks text.toList
  match readValue (2 * cs.length + 1) depth cs with
  | .error e => .error e
  | .ok (j, rest) => if (skipBlanks rest).isEmpty then .ok j else .error .malformed

end WorkflowClient.Json
