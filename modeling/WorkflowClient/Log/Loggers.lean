import WorkflowClient.Log.Line
import WorkflowClient.Log.Template

/-! The loggers of components. Each is fitted out when it is first asked for: with a handler of its
own, and with the level that is the default then. -/
namespace WorkflowClient.Log

/-- Writes entries of its level and above as lines. -/
structure Handler where
  level : Int
deriving DecidableEq

structure Logger where
  component : String
  level : Int := 0
  handlers : List Handler := []
  /-- Whether its entries also go to the handlers of the loggers above it. -/
  propagates : Bool := true
deriving DecidableEq

structure Loggers where
  defaultLevel : Int := info
  made : List Logger := []
deriving DecidableEq

/-- Before the name of every component, and a dot. -/
def rootName : String := "statewire"

namespace Logger

def name (l : Logger) : String := rootName ++ "." ++ l.component

/-- The logger with one more handler. Both get the level, and entries stay with the logger. -/
def fitted (level : Int) (l : Logger) : Logger :=
  { l with level, handlers := l.handlers ++ [⟨level⟩], propagates := false }

end Logger

namespace Loggers

def setDefault (s : Loggers) (level : Int) : Loggers := { s with defaultLevel := level }

def find? (s : Loggers) (component : String) : Option Logger :=
  s.made.find? (·.component == component)

/-- A logger in the place of the one of its component. -/
def put (s : Loggers) (l : Logger) : Loggers :=
  { s with made := s.made.filter (·.component != l.component) ++ [l] }

/-- The logger of a component, fitted out if it has no handler yet. -/
def get (s : Loggers) (component : String) : Logger × Loggers :=
  let l := (s.find? component).getD { component }
  if l.handlers.isEmpty then
    let l := l.fitted s.defaultLevel
    (l, s.put l)
  else (l, s)

/-- The components that a dotted name is part of, nearest first. -/
def ancestors (component : String) : List String :=
  let parts := (Text.splitOn '.' component.toList).map String.ofList
  (List.range (parts.length - 1)).reverse.map fun n => String.intercalate "." (parts.take (n + 1))

/-- A logger and those above it, nearest first. -/
def lineage (s : Loggers) (l : Logger) : List Logger :=
  l :: (ancestors l.component).filterMap s.find?

/-- Where no logger has a level, the least one that is logged. -/
def usualLevel : Int := warning

/-- The level that counts for a logger: its own, or the nearest that is set above it. -/
def effectiveLevel (s : Loggers) (l : Logger) : Int :=
  match (s.lineage l).find? fun l => l.level ≠ 0 with
  | some l => l.level
  | none => usualLevel

/-- The loggers that an entry gets to on its way up. -/
def reached : List Logger → List Logger
  | [] => []
  | l :: above => if l.propagates then l :: reached above else [l]

/-- The handlers that write an entry of a logger, and whose they are. Levels below one are never
written. -/
def receivers (s : Loggers) (l : Logger) (level : Int) : List (Logger × Handler) :=
  if 0 < level ∧ s.effectiveLevel l ≤ level then
    (reached (s.lineage l)).flatMap fun m =>
      (m.handlers.filter fun h => h.level ≤ level).map fun h => (m, h)
  else []

/-- What is written for a message of a component's logger, at a time shown as given. Nothing is
written if the values do not fit the message. -/
def write (s : Loggers) (time component : String) (level : Int) (message : String)
    (values : List Value := []) : String :=
  match s.find? component, fill message values with
  | some l, .ok message => String.join ((s.receivers l level).map fun _ =>
      Entry.line time { logger := l.name, level, message } ++ "\n")
  | _, _ => ""

end Loggers
end WorkflowClient.Log
