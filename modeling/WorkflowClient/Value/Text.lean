import WorkflowClient.Calendar.Iso
import WorkflowClient.Number.Reading
import WorkflowClient.Text.Quoted
import WorkflowClient.Value.Basic

/-! Values as texts: plain, as a message shows them, and quoted, as they would be written. -/
namespace WorkflowClient.Value
open Number (intText natText)

/-- Where application classes live, as their quoted texts show it. -/
def home : String := "app"

def enclosed (opening closing : String) (parts : List String) : String :=
  opening ++ String.intercalate ", " parts ++ closing

/-- Days, seconds and microseconds of a span, only the first of which may be negative. -/
def spanParts (microseconds : Int) : Int × Nat × Nat :=
  let rest := (microseconds % 86400000000).toNat
  (microseconds / 86400000000, rest / 1000000, rest % 1000000)

def spanQuoted (microseconds : Int) : String :=
  let (days, seconds, micro) := spanParts microseconds
  let parts :=
    (if days = 0 then [] else ["days=" ++ toString days]) ++
      (if seconds = 0 then [] else ["seconds=" ++ toString seconds]) ++
        (if micro = 0 then [] else ["microseconds=" ++ toString micro])
  enclosed "datetime.timedelta(" ")" (if parts.isEmpty then ["0"] else parts)

def spanText (microseconds : Int) : String :=
  let (days, seconds, micro) := spanParts microseconds
  let lead :=
    if days = 0 then "" else toString days ++ (if days.natAbs = 1 then " day, " else " days, ")
  lead ++ String.ofList (natText (seconds / 3600) ++ ':' :: Calendar.padded 2 (seconds / 60 % 60) ++
    ':' :: Calendar.padded 2 (seconds % 60) ++
      (if micro = 0 then [] else '.' :: Calendar.padded 6 micro))

def offsetQuoted (o : Calendar.Offset) : String :=
  if o.seconds = 0 then "datetime.timezone.utc"
  else "datetime.timezone(" ++ spanQuoted (o.seconds * 1000000) ++ ")"

/-- Hours and minutes, and of seconds and microseconds what is not zero at the end. -/
def clockParts (c : Calendar.Clock) : List String :=
  [toString c.hour, toString c.minute] ++
    (if c.second = 0 ∧ c.microsecond = 0 then [] else [toString c.second]) ++
      (if c.microsecond = 0 then [] else [toString c.microsecond]) ++
        (match c.offset with
          | some o => ["tzinfo=" ++ offsetQuoted o]
          | Option.none => [])

def dateParts (d : Calendar.Date) : List String :=
  [toString d.year, toString d.month, toString d.day]

def classQuoted (kind : ClassKind) (name : String) : String :=
  match kind with
  | .enumeration => "<enum '" ++ name ++ "'>"
  | _ => "<class '" ++ home ++ "." ++ name ++ "'>"

/-- A double without the point of a whole number. -/
def partText (x : Number.Double) : String :=
  String.ofList (Number.Layout.double ⟨some (-4), some 15, false⟩ x)

def complexText (re im : Number.Double) : String :=
  let tail := (if im.isNegative then "" else "+") ++ partText im ++ "j"
  if re == Number.Double.zero false then partText im ++ "j"
  else "(" ++ partText re ++ tail ++ ")"

/-- Quoted texts of values without parts. -/
def leafQuoted : Value → String
  | .none => "None"
  | .bool b => if b then "True" else "False"
  | .int n => String.ofList (intText n)
  | .float x => x.text
  | .str s => Text.quoted s
  | .octets .fixed data => Text.quotedOctets data
  | .octets .mutable data => "bytearray(" ++ Text.quotedMutableOctets data ++ ")"
  | .octets .view _ => "<memory>"
  | .range start stop => enclosed "range(" ")" [toString start, toString stop]
  | .date d => enclosed "datetime.date(" ")" (dateParts d)
  | .clock c => enclosed "datetime.time(" ")" (clockParts c)
  | .instant t => enclosed "datetime.datetime(" ")" (dateParts t.date ++ clockParts t.clock)
  | .span n => spanQuoted n
  | .uuid u => "UUID('" ++ u.text ++ "')"
  | .decimal d => "Decimal('" ++ d.text ++ "')"
  | .complex re im => complexText re im
  | .instance cls => "<" ++ home ++ "." ++ cls ++ " object>"
  | .classObject kind name => classQuoted kind name
  | _ => ""

mutual

/-- The text that would write the value. -/
def quoted : Value → String
  | .sequence kind items =>
    let parts := quotedItems items
    match kind with
    | .list => enclosed "[" "]" parts
    | .queue => enclosed "deque([" "])" parts
    | .tuple => enclosed "(" (if parts.length = 1 then ",)" else ")") parts
    | .set => if parts.isEmpty then "set()" else enclosed "\x7b" "\x7d" parts
    | .frozenSet => if parts.isEmpty then "frozenset()" else enclosed "frozenset(\x7b" "\x7d)" parts
  | .dict entries => enclosed "\x7b" "\x7d" (quotedEntries entries)
  | .record _ cls fields => enclosed (cls ++ "(") ")" (quotedFields fields)
  | .member _ cls name value => "<" ++ cls ++ "." ++ name ++ ": " ++ value.quoted ++ ">"
  | v => leafQuoted v

def quotedItems : List Value → List String
  | [] => []
  | v :: rest => v.quoted :: quotedItems rest

def quotedEntries : List (Value × Value) → List String
  | [] => []
  | (k, v) :: rest => (k.quoted ++ ": " ++ v.quoted) :: quotedEntries rest

def quotedFields : List (String × Value) → List String
  | [] => []
  | (n, v) :: rest => (n ++ "=" ++ v.quoted) :: quotedFields rest

end

/-- The text that shows the value. -/
def text : Value → String
  | .str s => s
  | .member .integer _ _ value => value.quoted
  | .member _ cls name _ => cls ++ "." ++ name
  | .date d => String.ofList d.chars
  | .clock c => String.ofList c.chars
  | .instant t => String.ofList (t.date.chars ++ ' ' :: t.clock.chars)
  | .span n => spanText n
  | .uuid u => u.text
  | .decimal d => d.text
  | .record .model _ fields => String.intercalate " " (quotedFields fields)
  | v => v.quoted

mutual

/-- Every integer in the value can be written. -/
def writable : Value → Bool
  | .int n => Number.writable n
  | .range a b => Number.writable a && Number.writable b
  | .sequence _ items => writableItems items
  | .dict entries => writableEntries entries
  | .record _ _ fields => writableFields fields
  | .member _ _ _ value => value.writable
  | _ => true

def writableItems : List Value → Bool
  | [] => true
  | v :: rest => v.writable && writableItems rest

def writableEntries : List (Value × Value) → Bool
  | [] => true
  | (k, v) :: rest => k.writable && v.writable && writableEntries rest

def writableFields : List (String × Value) → Bool
  | [] => true
  | (_, v) :: rest => v.writable && writableFields rest

end

/-- The text that shows the value, if every integer in it can be written. -/
def shown? (v : Value) : Option String := if v.writable then some v.text else Option.none

end WorkflowClient.Value
