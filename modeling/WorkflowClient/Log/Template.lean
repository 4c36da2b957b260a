import WorkflowClient.Number.Layout
import WorkflowClient.Validation.Scalar
import WorkflowClient.Value.Text

/-! Messages with places for values: a percent sign, how the value is laid out, and a letter for its
kind. -/
namespace WorkflowClient.Log

/-- Why a message cannot be filled in. -/
inductive TemplateFault
  | tooFewValues
  | tooManyValues
  | incomplete
  | incompleteKey
  | noMapping
  | unknownKey (key : String)
  | widthNotInteger
  | widthTooGreat
  | notCharacter
  | characterOutOfRange
  | notNumber (letter : Char) (className : String)
  | notInteger (letter : Char) (className : String)
  | notReal (className : String)
  | nanAsInteger
  | infinityAsInteger
  | tooGreatForFloat
  | unwritable
  | unknownLetter (letter : Char) (index : Nat)

/-- What kind of mistake a fault is. -/
inductive TemplateFaultKind
  | ofType
  | ofValue
  | ofRange
  | ofKey
deriving DecidableEq

namespace TemplateFault

def kind : TemplateFault → TemplateFaultKind
  | .incomplete | .incompleteKey | .widthTooGreat | .nanAsInteger | .unwritable
  | .unknownLetter .. => .ofValue
  | .characterOutOfRange | .infinityAsInteger | .tooGreatForFloat => .ofRange
  | .unknownKey _ => .ofKey
  | _ => .ofType

def hexDigits (n : Nat) : String := String.ofList (Nat.toDigits 16 n)

def message : TemplateFault → String
  | .tooFewValues => "not enough arguments for format string"
  | .tooManyValues => "not all arguments converted during string formatting"
  | .incomplete => "incomplete format"
  | .incompleteKey => "incomplete format key"
  | .noMapping => "format requires a mapping"
  | .unknownKey key => Text.quoted key
  | .widthNotInteger => "* wants int"
  | .widthTooGreat => "width too big"
  | .notCharacter => "%c requires int or char"
  | .characterOutOfRange => "%c arg not in range(0x110000)"
  | .notNumber letter cls =>
    "%" ++ letter.toString ++ " format: a real number is required, not " ++ cls
  | .notInteger letter cls =>
    "%" ++ letter.toString ++ " format: an integer is required, not " ++ cls
  | .notReal cls => "must be real number, not " ++ cls
  | .nanAsInteger => "cannot convert float NaN to integer"
  | .infinityAsInteger => "cannot convert float infinity to integer"
  | .tooGreatForFloat => "int too large to convert to float"
  | .unwritable => Number.limitText none
  | .unknownLetter letter index =>
    let shown := if 31 ≤ letter.toNat ∧ letter.toNat ≤ 126 then letter.toString else "?"
    "unsupported format character '" ++ shown ++ "' (0x" ++ hexDigits letter.toNat ++
      ") at index " ++ toString index

end TemplateFault

/-- A width or a count of places: given, or taken from the values. -/
inductive Measure
  | given (n : Nat)
  | next

structure Flags where
  left : Bool := false
  zeros : Bool := false
  plus : Bool := false
  blank : Bool := false
  alternate : Bool := false

/-- A place for a value. -/
structure Slot where
  key : Option String
  flags : Flags
  width : Option Measure
  precision : Option Measure
  letter : Char
  index : Nat

inductive Piece
  | character (c : Char)
  | slot (s : Slot)
  | broken (fault : TemplateFault)

namespace Template

def flag? (f : Flags) : Char → Option Flags
  | '-' => some { f with left := true }
  | '0' => some { f with zeros := true }
  | '+' => some { f with plus := true }
  | ' ' => some { f with blank := true }
  | '#' => some { f with alternate := true }
  | _ => none

def readFlags (f : Flags) : List Char → Flags × List Char
  | [] => (f, [])
  | c :: rest => match flag? f c with
    | some f => readFlags f rest
    | none => (f, c :: rest)

def readMeasure (cs : List Char) : Option Measure × List Char :=
  match cs with
  | '*' :: rest => (some .next, rest)
  | cs => match Number.spanDigits cs with
    | ([], rest) => (none, rest)
    | (ds, rest) => (some (.given (Number.value ds)), rest)

/-- Places after a point; a point alone stands for none. -/
def readPrecision (cs : List Char) : Option Measure × List Char :=
  match cs with
  | '.' :: rest => match readMeasure rest with
    | (none, rest) => (some (.given 0), rest)
    | r => r
  | cs => (none, cs)

/-- A key up to the bracket that closes it; brackets inside it come in pairs. -/
def readKey (depth : Nat) (key : List Char) : List Char → Option (List Char × List Char)
  | [] => none
  | ')' :: rest => match depth with
    | 0 => some (key.reverse, rest)
    | depth + 1 => readKey depth (')' :: key) rest
  | '(' :: rest => readKey (depth + 1) ('(' :: key) rest
  | c :: rest => readKey depth (c :: key) rest

def dropSize (cs : List Char) : List Char :=
  match cs with
  | c :: rest => if c = 'h' || c = 'l' || c = 'L' then rest else cs
  | [] => []

/-- What follows a percent sign, and the text after it; `length` is that of the whole message. -/
def readSlot (length : Nat) (cs : List Char) : Piece × List Char :=
  let keyed : Option (Option String × List Char) := match cs with
    | '(' :: rest => (readKey 0 [] rest).map fun r => (some (String.ofList r.1), r.2)
    | cs => some (none, cs)
  match keyed with
  | none => (.broken .incompleteKey, [])
  | some (key, cs) =>
    let (flags, cs) := readFlags {} cs
    let (width, cs) := readMeasure cs
    let (precision, cs) := readPrecision cs
    match dropSize cs with
    | [] => (.broken .incomplete, [])
    | letter :: rest =>
      (.slot ⟨key, flags, width, precision, letter, length - rest.length - 1⟩, rest)

/-- The pieces of a message; two percent signs stand for one. Every step takes a character or
more. -/
def pieces (length : Nat) : Nat → List Char → List Piece
  | 0, _ => []
  | _, [] => []
  | fuel + 1, '%' :: '%' :: rest => .character '%' :: pieces length fuel rest
  | fuel + 1, '%' :: rest =>
    let (piece, rest) := readSlot length rest
    piece :: pieces length fuel rest
  | fuel + 1, c :: rest => .character c :: pieces length fuel rest

/-- The values that are still to be used, and the mapping that keys are looked up in. -/
structure Supply where
  values : List Value
  mapping : Option (List (Value × Value)) := none

abbrev Filled (α : Type) := Except TemplateFault α

def next (s : Supply) : Filled (Value × Supply) :=
  match s.values with
  | [] => .error .tooFewValues
  | v :: rest => .ok (v, { s with values := rest })

def select (s : Supply) : Option String → Filled Supply
  | none => .ok s
  | some key => match s.mapping with
    | none => .error .noMapping
    | some entries => match entries.find? fun e => e.1.text? == some key with
      | some e => .ok { s with values := [e.2] }
      | none => .error (.unknownKey key)

/-- The greatest width. -/
def widthLimit : Nat := 2147483647

def within (n : Int) (s : Supply) : Filled (Option Int × Supply) :=
  if n.natAbs ≤ widthLimit then .ok (some n, s) else .error .widthTooGreat

/-- A measure as a number, negative if a value says so. -/
def measure (s : Supply) : Option Measure → Filled (Option Int × Supply)
  | none => .ok (none, s)
  | some (.given n) => within n s
  | some .next => match next s with
    | .error e => .error e
    | .ok (v, s) => match v with
      | .int n => within n s
      | .bool b => .ok (some (if b then 1 else 0), s)
      | .member .integer _ _ (.int n) => within n s
      | _ => .error .widthNotInteger

/-- The full name of a value's class, as complaints about its kind give it. -/
def fullName (v : Value) : String :=
  match v with
  | .decimal _ => "decimal." ++ v.className
  | .date _ | .clock _ | .instant _ | .span _ => "datetime." ++ v.className
  | .sequence .queue _ => "collections." ++ v.className
  | _ => v.className

def isIntegerLetter (c : Char) : Bool := ['d', 'i', 'u', 'o', 'x', 'X'].contains c

def isFloatLetter (c : Char) : Bool := ['e', 'E', 'f', 'F', 'g', 'G'].contains c

def isTextLetter (c : Char) : Bool := ['s', 'r', 'a', 'c'].contains c

/-- A number without its fraction. -/
def truncated (letter : Char) (v : Value) : Filled Int :=
  match v with
  | .int n | .member .integer _ _ (.int n) => .ok n
  | .bool b => .ok (if b then 1 else 0)
  | v =>
    if ['o', 'x', 'X'].contains letter then .error (.notInteger letter (fullName v))
    else match v with
      | .float .nan => .error .nanAsInteger
      | .float (.infinite _) => .error .infinityAsInteger
      | .float x => match x.ratio? with
        | some (n, d) => .ok (n.tdiv d)
        | none => .error .nanAsInteger
      | .decimal (.finite s c e) =>
        let n : Int := (c * Nat.pow 10 e.toNat / Nat.pow 10 (-e).toNat : Nat)
        .ok (if s then -n else n)
      | .decimal (.infinite _) => .error .infinityAsInteger
      | .decimal _ => .error .nanAsInteger
      | v => .error (.notNumber letter (fullName v))

def real (v : Value) : Filled Number.Double :=
  let ofInt (n : Int) : Filled Number.Double :=
    let x := Number.Double.ofInt n
    if x.isFinite then .ok x else .error .tooGreatForFloat
  match v with
  | .float x => .ok x
  | .int n | .member .integer _ _ (.int n) => ofInt n
  | .bool b => ofInt (if b then 1 else 0)
  | .decimal d => .ok d.toDouble
  | v => .error (.notReal (fullName v))

/-- A sign, what goes before the digits in any case, and the rest of a number or text. -/
structure Body where
  sign : List Char := []
  lead : List Char := []
  rest : List Char

def signOf (f : Flags) (negative : Bool) : List Char :=
  if negative then ['-'] else if f.plus then ['+'] else if f.blank then [' '] else []

def upperIf (letter : Char) (cs : List Char) : List Char :=
  if letter.isUpper then cs.map Char.toUpper else cs

def integerBody (s : Slot) (precision : Nat) (n : Int) : Filled Body :=
  let base := if s.letter = 'o' then 8 else if s.letter.toLower = 'x' then 16 else 10
  if base = 10 && !Number.writable n then .error .unwritable
  else
    let ds := upperIf s.letter (Nat.toDigits base n.natAbs)
    .ok { sign := signOf s.flags (n < 0)
          lead := if s.flags.alternate && base ≠ 10 then
              ['0', s.letter] else []
          rest := Number.zeros (precision - ds.length) ++ ds }

def magnitude (s : Slot) (precision : Nat) (numerator denominator : Nat) : List Char :=
  let cs := match s.letter.toLower with
    | 'e' => Number.scientificPlaces precision numerator denominator
    | 'f' => Number.fixedPlaces precision numerator denominator
    | _ => Number.generalDigits s.flags.alternate precision numerator denominator
  if s.flags.alternate && !cs.contains '.' then
    cs.takeWhile (· ≠ 'e') ++ '.' :: cs.dropWhile (· ≠ 'e')
  else cs

def floatBody (s : Slot) (precision : Nat) (x : Number.Double) : Body :=
  let cs := match x.ratio? with
    | some (n, d) => magnitude s precision n.natAbs d
    | none => if x.isNaN then ['n', 'a', 'n'] else ['i', 'n', 'f']
  { sign := signOf s.flags x.isNegative, rest := upperIf s.letter cs }

/-- Quoted text in ASCII alone. -/
def asciiOnly (cs : List Char) : List Char :=
  cs.flatMap fun c =>
    let n := c.toNat
    if n < 0x7F then [c]
    else if n < 0x100 then '\\' :: 'x' :: Text.hex 2 n
    else if n < 0x10000 then '\\' :: 'u' :: Text.hex 4 n
    else '\\' :: 'U' :: Text.hex 8 n

def character (v : Value) : Filled (List Char) :=
  match v with
  | .str s => match s.toList with
    | [c] => .ok [c]
    | _ => .error .notCharacter
  | .int n | .member .integer _ _ (.int n) =>
    if 0 ≤ n ∧ n < 0x110000 then .ok [Char.ofNat n.toNat] else .error .characterOutOfRange
  | .bool b => .ok [Char.ofNat (if b then 1 else 0)]
  | _ => .error .notCharacter

def textBody (s : Slot) (precision : Option Nat) (v : Value) : Filled Body :=
  if s.letter = 'c' then (character v).map fun cs => { rest := cs }
  else if !v.writable then .error .unwritable
  else
    let cs := match s.letter with
      | 's' => v.text.toList
      | 'r' => v.quoted.toList
      | _ => asciiOnly v.quoted.toList
    .ok { rest := match precision with
      | some n => cs.take n
      | none => cs }

def body (s : Slot) (precision : Option Nat) (v : Value) : Filled Body :=
  if isTextLetter s.letter then textBody s precision v
  else if isIntegerLetter s.letter then
    match truncated s.letter v with
    | .ok n => integerBody s (precision.getD 0) n
    | .error e => .error e
  else if isFloatLetter s.letter then (real v).map (floatBody s (precision.getD 6))
  else .error (.unknownLetter s.letter s.index)

/-- A body in its width. Zeros go between sign and digits, blanks outside. -/
def padded (f : Flags) (numeric : Bool) (width : Int) (b : Body) : List Char :=
  let used := b.sign.length + b.lead.length + b.rest.length
  let missing := width.natAbs - used
  if f.left || width < 0 then b.sign ++ b.lead ++ b.rest ++ List.replicate missing ' '
  else if f.zeros && numeric then b.sign ++ b.lead ++ Number.zeros missing ++ b.rest
  else List.replicate missing ' ' ++ b.sign ++ b.lead ++ b.rest

def fillSlot (supply : Supply) (s : Slot) : Filled (List Char × Supply) := do
  let supply ← select supply s.key
  let (width, supply) ← measure supply s.width
  let (precision, supply) ← measure supply s.precision
  let (v, supply) ← next supply
  let b ← body s (precision.map Int.toNat) v
  pure (padded s.flags (!isTextLetter s.letter) (width.getD 0) b, supply)

def fillPieces (supply : Supply) : List Piece → Filled (List Char)
  | [] => if supply.mapping.isNone && !supply.values.isEmpty then .error .tooManyValues else .ok []
  | .character c :: rest => (fillPieces supply rest).map (c :: ·)
  | .broken .incompleteKey :: _ =>
    .error (if supply.mapping.isNone then .noMapping else .incompleteKey)
  | .broken fault :: _ => .error fault
  | .slot s :: rest => do
    let (cs, supply) ← fillSlot supply s
    let more ← fillPieces supply rest
    pure (cs ++ more)

end Template

/-- A message with its values filled in. Without values it stands as it is; a single dict is also
looked up by key. -/
def fill (message : String) (values : List Value) : Except TemplateFault String :=
  if values.isEmpty then .ok message
  else
    let supply : Template.Supply := match values with
      | [.dict (e :: more)] => ⟨values, some (e :: more)⟩
      | _ => ⟨values, none⟩
    let cs := message.toList
    (Template.fillPieces supply (Template.pieces cs.length cs.length cs)).map String.ofList

end WorkflowClient.Log
