import WorkflowClient.Calendar.Basic
import WorkflowClient.Json.Basic
import WorkflowClient.Number.Decimal
import WorkflowClient.Uuid

/-! The values that an application hands to the client and gets back from it. -/
namespace WorkflowClient

/-- How octets are held: for good, open to change, or as a view of others. -/
inductive OctetsKind
  | fixed
  | mutable
  | view
deriving DecidableEq

inductive SequenceKind
  | list
  | tuple
  | queue
  | set
  | frozenSet
deriving DecidableEq

/-- Fields are checked when a model is built, not when a data record is; a named tuple is also a
tuple. -/
inductive RecordKind
  | model
  | data
  | tuple
deriving DecidableEq

/-- What a member of an enumeration is besides. -/
inductive Mixin
  | plain
  | text
  | integer
deriving DecidableEq

/-- Class objects differ by what their class is made of. -/
inductive ClassKind
  | ordinary
  | model
  | enumeration
deriving DecidableEq

inductive Value
  | none
  | bool (b : Bool)
  | int (n : Int)
  | float (x : Number.Double)
  | str (s : String)
  | octets (kind : OctetsKind) (data : List UInt8)
  | sequence (kind : SequenceKind) (items : List Value)
  | range (start stop : Int)
  | dict (entries : List (Value × Value))
  | record (kind : RecordKind) (cls : String) (fields : List (String × Value))
  | member (mixin : Mixin) (cls name : String) (value : Value)
  | date (d : Calendar.Date)
  | clock (c : Calendar.Clock)
  | instant (t : Calendar.Instant)
  | span (microseconds : Int)
  | uuid (u : Uuid)
  | decimal (d : Number.Decimal)
  | complex (re im : Number.Double)
  | instance (cls : String)
  | classObject (kind : ClassKind) (name : String)

namespace Value

/-- The name of a value's class. -/
def className : Value → String
  | .none => "NoneType"
  | .bool _ => "bool"
  | .int _ => "int"
  | .float _ => "float"
  | .str _ => "str"
  | .octets .fixed _ => "bytes"
  | .octets .mutable _ => "bytearray"
  | .octets .view _ => "memoryview"
  | .sequence .list _ => "list"
  | .sequence .tuple _ => "tuple"
  | .sequence .queue _ => "deque"
  | .sequence .set _ => "set"
  | .sequence .frozenSet _ => "frozenset"
  | .range .. => "range"
  | .dict _ => "dict"
  | .record _ cls _ => cls
  | .member _ cls .. => cls
  | .date _ => "date"
  | .clock _ => "time"
  | .instant _ => "datetime"
  | .span _ => "timedelta"
  | .uuid _ => "UUID"
  | .decimal _ => "Decimal"
  | .complex .. => "complex"
  | .instance cls => cls
  | .classObject .ordinary _ => "type"
  | .classObject .model _ => "ModelMetaclass"
  | .classObject .enumeration _ => "EnumType"

/-- The integers from `start` up to, but not including, `stop`. -/
def rangeItems (start stop : Int) : List Value :=
  (List.range (stop - start).toNat).map fun (k : Nat) => .int (start + (k : Int))

def octetItems (data : List UInt8) : List Value := data.map fun b => .int b.toNat

/-- The field of that name, if the record has it. -/
def field? (fields : List (String × Value)) (name : String) : Option Value :=
  (fields.find? fun f => f.1 == name).map (·.2)

mutual

/-- Plain data as a value; names that an object repeats stay repeated. -/
def ofJson : Json → Value
  | .null => .none
  | .bool b => .bool b
  | .int n => .int n
  | .float x => .float x
  | .str s => .str s
  | .array items => .sequence .list (ofJsonItems items)
  | .object members => .dict (ofJsonMembers members)

def ofJsonItems : List Json → List Value
  | [] => []
  | j :: rest => ofJson j :: ofJsonItems rest

def ofJsonMembers : List (String × Json) → List (Value × Value)
  | [] => []
  | (k, j) :: rest => (.str k, ofJson j) :: ofJsonMembers rest

end

end Value
end WorkflowClient
