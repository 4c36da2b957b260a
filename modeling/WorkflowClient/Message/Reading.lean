import WorkflowClient.Json.Basic
import WorkflowClient.Validation.Scalar

/-! Records read from named members, and written as members. Names are words with underscores here
and run together on the wire. -/
namespace WorkflowClient.Message
open Validation

/-- The name with the words after the first one capitalised and run together. -/
def camelChars : List Char → List Char
  | [] => []
  | '_' :: c :: rest => c.toUpper :: camelChars rest
  | c :: rest => c :: camelChars rest

def camel (name : String) : String := String.ofList (camelChars name.toList)

/-- Values by name. -/
abbrev Members := List (String × Value)

/-- What is made of members; all that is wrong with them is found. -/
structure Reading (α : Type) where
  run : Members → Checked α

instance : Applicative Reading where
  pure a := ⟨fun _ => .ok a⟩
  seq f x := ⟨fun ms => both (· ·) (f.run ms) ((x ()).run ms)⟩

/-- The first of the names that there is a value for, with that value. -/
def find? (ms : Members) : List String → Option (String × Value)
  | [] => none
  | name :: rest => (ms.find? (·.1 == name)).orElse fun _ => find? ms rest

/-- A field that goes by any of the names. -/
def field {α : Type} (names : List String) (absent : Checked α) (decode : Value → Checked α) :
    Reading α :=
  ⟨fun ms => match find? ms names with
    | some (name, v) => (decode v).below (.name name)
    | none => absent⟩

/-- The wire name of a field goes before its own. -/
def namesOf (name : String) : List String := [camel name, name]

/-- A field that has to be there. -/
def required {α : Type} (name : String) (decode : Value → Checked α) : Reading α :=
  field (namesOf name) (fault .missing [.name (camel name)]) decode

/-- A field that has a value even if it is not there. -/
def optional {α : Type} (name : String) (default : α) (decode : Value → Checked α) : Reading α :=
  field (namesOf name) (.ok default) decode

def scalar {α : Type} (r : Scalar α) : Checked α :=
  match r with
  | .ok (a, _) => .ok a
  | .error k => fault k

def text (v : Value) : Checked String := scalar (checkStr .lax v)

def integer (v : Value) : Checked Int := scalar (checkInt .lax v)

def truth (v : Value) : Checked Bool := scalar (checkBool .lax v)

def float (v : Value) : Checked Number.Double := scalar (checkFloat .lax v)

def nullable {α : Type} (decode : Value → Checked α) (v : Value) : Checked (Option α) :=
  match v with
  | .none => .ok none
  | v => (decode v).map some

/-- The items of any container that holds items one by one. -/
def itemsOf? : Value → Option (List Value)
  | .sequence _ items => some items
  | .record .tuple _ fields => some (fields.map (·.2))
  | .range start stop => some (Value.rangeItems start stop)
  | .octets .view data => some (Value.octetItems data)
  | _ => none

def list {α : Type} (decode : Value → Checked α) (v : Value) : Checked (List α) :=
  match itemsOf? v with
  | some items => collectIndexed 0 (items.map decode)
  | none => fault .listType

/-- Members with text names. -/
def membersOf (entries : List (Value × Value)) : Members :=
  entries.filterMap fun e => e.1.text?.map fun name => (name, e.2)

/-- Names for the values of an enumeration's type. -/
structure Choices (α : Type) where
  className : String
  members : List α
  name : α → String
  text : α → String

/-- The value of a member. -/
def Choices.toValue {α : Type} (c : Choices α) (a : α) : Value :=
  .member .text c.className (c.name a) (.str (c.text a))

/-- A member itself, or the one that has the text. -/
def choice {α : Type} (c : Choices α) (v : Value) : Checked α :=
  let found := match v with
    | .member _ cls name _ =>
      if cls = c.className then c.members.find? fun a => c.name a == name
      else (checkStr .lax v).toOption.bind fun s => c.members.find? fun a => c.text a == s.1
    | _ => (checkStr .lax v).toOption.bind fun s => c.members.find? fun a => c.text a == s.1
  match found with
  | some a => .ok a
  | none => fault .enumeration

/-- How records of a class are read, and their fields in order. -/
structure Shape (α : Type) where
  className : String
  reading : Reading α
  fields : α → List (String × Value)

/-- Optional text as a value. -/
def ofText? : Option String → Value
  | none => .none
  | some s => .str s

mutual

/-- A value on the wire: wire names, no nulls. -/
def wireOf : Value → Json
  | .bool b => .bool b
  | .int n => .int n
  | .str s => .str s
  | .member _ _ _ value => wireOf value
  | .sequence _ items => .array (wireItems items)
  | .record _ _ ms => .object (wireMembers ms)
  | _ => .null

def wireItems : List Value → List Json
  | [] => []
  | v :: rest => wireOf v :: wireItems rest

/-- Members that are not null. -/
def wireMembers : List (String × Value) → List (String × Json)
  | [] => []
  | (_, .none) :: rest => wireMembers rest
  | (name, v) :: rest => (camel name, wireOf v) :: wireMembers rest

end

namespace Shape
variable {α : Type} (S : Shape α)

/-- A record as a value of the application. -/
def toValue (a : α) : Value := .record .model S.className (S.fields a)

/-- A record from values by name. -/
def ofMembers (ms : Members) : Checked α := S.reading.run ms

/-- A record from a dict, or from an instance of its own class. -/
def ofValue (v : Value) : Checked α :=
  match v with
  | .dict entries => S.ofMembers (membersOf entries)
  | .record .model cls ms => if cls = S.className then S.ofMembers ms else fault .modelType
  | _ => fault .modelType

/-- The body that is sent for a record. -/
def toWire (a : α) : Json := .object (wireMembers (S.fields a))

end Shape
end WorkflowClient.Message
