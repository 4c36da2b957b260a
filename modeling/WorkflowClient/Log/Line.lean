import WorkflowClient.Calendar.Iso
import WorkflowClient.Text.Basic
import WorkflowClient.Value.Text

/-! What the client writes to its log, and the lines that come of it. -/
namespace WorkflowClient.Log

inductive Component
  | client
  | registry
  | codec
  | transport
  | config
deriving DecidableEq

def Component.name : Component → String
  | .client => "client"
  | .registry => "registry"
  | .codec => "codec"
  | .transport => "transport"
  | .config => "config"

def debug : Int := 10

def info : Int := 20

def warning : Int := 30

def error : Int := 40

def critical : Int := 50

/-- The name of a level; levels without one show their number. -/
def levelName (level : Int) : String :=
  if level = 0 then "NOTSET"
  else if level = debug then "DEBUG"
  else if level = info then "INFO"
  else if level = warning then "WARNING"
  else if level = error then "ERROR"
  else if level = critical then "CRITICAL"
  else "Level " ++ toString level

/-- One entry of the log. -/
structure Record where
  component : Component
  level : Int
  message : String

/-! Entries of the log as coloured lines with columns. -/

/-- An exception that an entry was logged with. -/
structure Exception where
  name : String
  arguments : List Value := []

/-- A failed look-up shows its key quoted, any other exception its only argument as it is. -/
def Exception.detail (e : Exception) : String :=
  match e.arguments with
  | [] => ""
  | [v] => if e.name = "KeyError" then v.quoted else v.text
  | vs => Value.quoted (.sequence .tuple vs)

def Exception.text (e : Exception) : String :=
  if e.detail.isEmpty then e.name else e.name ++ ": " ++ e.detail

/-- An entry of a logger whose message is complete. -/
structure Entry where
  logger : String
  level : Int
  message : String
  exception : Option Exception := none

/-- The part of a logger's name after its last dot. -/
def component (logger : String) : String :=
  String.ofList ((Text.splitOn '.' logger.toList).getLastD [])

def components : List Component := [.client, .registry, .codec, .transport, .config]

/-- The longest component in brackets and a blank. -/
def componentWidth : Nat := (components.map (·.name.length)).foldl max 0 + 3

/-- The longest named level in brackets and a blank. -/
def levelWidth : Nat := (levelName critical).length + 3

def tag (width : Nat) (s : String) : String := Text.padRight width ("[" ++ s ++ "]")

def colored (color s : String) : String := "\x1b[" ++ color ++ "m" ++ s ++ "\x1b[0m"

def lightBlue : String := "94"

def white : String := "97"

def levelColor (level : Int) : String :=
  if level = debug then "90"
  else if level = info then "92"
  else if level = warning then "93"
  else if level = error then "91"
  else if level = critical then "1;91"
  else white

/-- The line of an entry, and under it that of its exception. -/
def Entry.line (time : String) (e : Entry) : String :=
  colored lightBlue ("[" ++ time ++ "]") ++ " " ++
    colored white (tag componentWidth (component e.logger)) ++
    colored (levelColor e.level) (tag levelWidth (levelName e.level)) ++ colored white e.message ++
    (match e.exception with
      | some x => "\n" ++ x.text
      | none => "")

/-- A count of seconds since 1970, rounded to microseconds with a half to the even one, without the
microseconds. -/
def wholeSeconds (x : Number.Double) : Int :=
  match x.ratio? with
  | none => 0
  | some (n, d) =>
    let whole := n.tdiv d
    let fraction := (n - whole * d).natAbs
    let micro := match (Number.Double.ofRatio false (fraction * 1000000) d).ratio? with
      | some (m, e) => Number.Double.divideHalfEven m.natAbs e
      | none => 0
    let total := whole * 1000000 + (if n < 0 then -(micro : Int) else micro)
    total / 1000000

/-- The time of day, in universal time, of a count of seconds. -/
def timeOfDay (seconds : Int) : String :=
  let s := (seconds % 86400).toNat
  String.ofList (Calendar.padded 2 (s / 3600) ++ ':' :: Calendar.padded 2 (s / 60 % 60) ++
    ':' :: Calendar.padded 2 (s % 60))

end WorkflowClient.Log
