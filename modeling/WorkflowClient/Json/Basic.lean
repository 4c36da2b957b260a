import WorkflowClient.Number.Double
import WorkflowClient.Number.Layout
import WorkflowClient.Number.Reading
import WorkflowClient.Text.Quoted

/-! Plain data: what a payload text can say, and how it says it. -/
namespace WorkflowClient

/-- Objects keep their members in order, and may repeat a name until they are settled. -/
inductive Json
  | null
  | bool (b : Bool)
  | int (n : Int)
  | float (x : Number.Double)
  | str (s : String)
  | array (items : List Json)
  | object (members : List (String × Json))

namespace Json

/-- A member under a name that was there keeps the place and takes the new value. -/
def put {α β : Type} [BEq α] (key : α) (value : β) : List (α × β) → List (α × β)
  | [] => [(key, value)]
  | (k, v) :: rest => if k == key then (k, value) :: rest else (k, v) :: put key value rest

/-- Every key once, at the place of its first entry, with the value of its last. -/
def settleEntries {α β : Type} [BEq α] (entries : List (α × β)) : List (α × β) :=
  entries.foldl (fun acc e => put e.1 e.2 acc) []

mutual

/-- The data with every object settled. -/
def settle : Json → Json
  | .array items => .array (settleItems items)
  | .object members => .object (settleEntries (settleMembers members))
  | .null => .null
  | .bool b => .bool b
  | .int n => .int n
  | .float x => .float x
  | .str s => .str s

def settleItems : List Json → List Json
  | [] => []
  | j :: rest => j.settle :: settleItems rest

def settleMembers : List (String × Json) → List (String × Json)
  | [] => []
  | (k, j) :: rest => (k, j.settle) :: settleMembers rest

end

end Json
end WorkflowClient

/-! The text of plain data. -/
namespace WorkflowClient.Json

/-- What stands between members and between a name and its value. -/
structure Spacing where
  comma : List Char
  colon : List Char

def compact : Spacing := ⟨[','], [':']⟩

def spaced : Spacing := ⟨[',', ' '], [':', ' ']⟩

/-- Inside quotation marks only the mark, the backslash and control characters are escaped. -/
def escape (c : Char) : List Char :=
  if c = '"' then ['\\', '"']
  else if c = '\\' then ['\\', '\\']
  else if c = '\n' then ['\\', 'n']
  else if c = '\r' then ['\\', 'r']
  else if c = '\t' then ['\\', 't']
  else if c = '\x08' then ['\\', 'b']
  else if c = '\x0c' then ['\\', 'f']
  else if c.toNat < 0x20 then '\\' :: 'u' :: Text.hex 4 c.toNat
  else [c]

def stringChars (s : String) : List Char := '"' :: (s.toList.flatMap escape ++ ['"'])

mutual

def chars (s : Spacing) : Json → List Char
  | .null => ['n', 'u', 'l', 'l']
  | .bool true => ['t', 'r', 'u', 'e']
  | .bool false => ['f', 'a', 'l', 's', 'e']
  | .int n => Number.intText n
  | .float x => Number.standard.double x
  | .str t => stringChars t
  | .array [] => ['[', ']']
  | .array (j :: rest) => '[' :: (j.chars s ++ itemsChars s rest)
  | .object [] => ['{', '}']
  | .object ((k, j) :: rest) =>
    '{' :: (stringChars k ++ s.colon ++ j.chars s ++ membersChars s rest)

/-- The items after the first one, and the bracket. -/
def itemsChars (s : Spacing) : List Json → List Char
  | [] => [']']
  | j :: rest => s.comma ++ (j.chars s ++ itemsChars s rest)

/-- The members after the first one, and the brace. -/
def membersChars (s : Spacing) : List (String × Json) → List Char
  | [] => ['}']
  | (k, j) :: rest => s.comma ++ (stringChars k ++ s.colon ++ j.chars s ++ membersChars s rest)

end

mutual

/-- No integer in it is too long to be written. -/
def integersWritable : Json → Bool
  | .int n => Number.writable n
  | .array items => integersWritableItems items
  | .object members => integersWritableMembers members
  | .null | .bool _ | .float _ | .str _ => true

def integersWritableItems : List Json → Bool
  | [] => true
  | j :: rest => j.integersWritable && integersWritableItems rest

def integersWritableMembers : List (String × Json) → Bool
  | [] => true
  | (_, j) :: rest => j.integersWritable && integersWritableMembers rest

end

mutual

/-- No float in it is infinite or a NaN. -/
def floatsFinite : Json → Bool
  | .float x => x.isFinite
  | .array items => floatsFiniteItems items
  | .object members => floatsFiniteMembers members
  | .null | .bool _ | .int _ | .str _ => true

def floatsFiniteItems : List Json → Bool
  | [] => true
  | j :: rest => j.floatsFinite && floatsFiniteItems rest

def floatsFiniteMembers : List (String × Json) → Bool
  | [] => true
  | (_, j) :: rest => j.floatsFinite && floatsFiniteMembers rest

end

/-- The text, unless a number in it has none. -/
def print? (s : Spacing) (j : Json) : Option String :=
  if j.floatsFinite && j.integersWritable then some (String.ofList (j.chars s)) else none

end WorkflowClient.Json
