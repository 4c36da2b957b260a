import WorkflowClient.Diagnostic.Basic
import WorkflowClient.Text.Basic

/-! Errors as text, with or without colours, and what the terminal shows of them. -/
namespace WorkflowClient.Diagnostic

/-- The sequences that switch a terminal's colours. -/
structure Palette where
  reset : String := ""
  bold : String := ""
  red : String := ""
  blue : String := ""
  cyan : String := ""
  green : String := ""

def Palette.plain : Palette := {}

def Palette.colored : Palette where
  reset := "\x1b[0m"
  bold := "\x1b[1m"
  red := "\x1b[91m"
  blue := "\x1b[94m"
  cyan := "\x1b[96m"
  green := "\x1b[92m"

/-- Source files by name. -/
abbrev Files := List (String × String)

/-- A name in angle brackets is that of a source without a file. -/
def hasFile (name : String) : Bool := !(name.startsWith "<" && name.endsWith ">")

/-- The source line at a location, if the file has it. -/
def sourceLine? (files : Files) (l : Location) : Option String :=
  match files.find? fun f => f.1 == l.file && hasFile l.file with
  | some f => Text.line? l.line f.2
  | none => none

def blanks (n : Nat) : String := String.ofList (List.replicate n ' ')

def splitLines (s : String) : List String :=
  (Text.splitOn '\n' s.toList).map String.ofList

/-- The line under its number, with a mark below all of it but its indentation. -/
def snippet (p : Palette) (l : Location) (line : String) : List String :=
  let number := toString l.line
  let padding := blanks number.length
  let body := line.toList.dropWhile Text.isBlank
  let indent := line.length - body.length
  let underline := blanks indent ++ String.ofList (List.replicate body.length '^')
  ["   " ++ p.blue ++ padding ++ "|" ++ p.reset,
    "   " ++ p.blue ++ number ++ "|" ++ p.reset ++ " " ++ line,
    "   " ++ p.blue ++ padding ++ "|" ++ p.reset ++ " " ++ p.red ++ underline ++ p.reset]

def locationLines (p : Palette) (files : Files) : Option Location → List String
  | none => []
  | some l =>
    ("  " ++ p.blue ++ "-->" ++ p.reset ++ " " ++ p.cyan ++ l.short ++ p.reset) ::
      (match sourceLine? files l with
        | some line => if line.isEmpty then [] else snippet p l line
        | none => [])

def noteLines (p : Palette) (note : String) : List String :=
  match splitLines note with
  | [] => []
  | first :: rest =>
    ("   " ++ p.blue ++ "=" ++ p.reset ++ " " ++ p.bold ++ p.blue ++ "note" ++ p.reset ++ ": " ++
      first) :: rest.map ("          " ++ ·)

def helpLines (p : Palette) : Option String → List String
  | none => []
  | some help =>
    if help.isEmpty then []
    else
      "" :: ("   " ++ p.blue ++ "=" ++ p.reset ++ " " ++ p.bold ++ p.green ++ "help" ++
        p.reset ++ ":") :: (splitLines help).map ("        " ++ ·)

/-- The code of an error, where it has one. -/
def codeText : Option Code → String
  | some c => "[" ++ c.text ++ "]"
  | none => ""

def headerText (p : Palette) (files : Files) (h : Header) : String :=
  String.intercalate "\n"
    ("" :: (p.bold ++ p.red ++ "error" ++ codeText h.code ++ ":" ++ p.reset ++ " " ++
        h.message) ::
      (locationLines p files h.location ++ h.notes.flatMap (noteLines p) ++ helpLines p h.help))

/-- The closing line of a report. -/
def abortingText (p : Palette) (phase : String) (count : Nat) : String :=
  "\n" ++ p.bold ++ p.red ++ "error" ++ p.reset ++ ": aborting " ++ phase ++ " due to " ++
    toString count ++ " previous errors"

mutual

/-- An error as text; of a report only its errors and their number show. -/
def render (p : Palette) (files : Files) : Diagnostic → String
  | .single _ h => headerText p files h
  | .multiple _ phase errors =>
    String.intercalate "\n" (renderAll p files errors ++ [abortingText p phase errors.length])

def renderAll (p : Palette) (files : Files) : List Diagnostic → List String
  | [] => []
  | d :: rest => render p files d :: renderAll p files rest

end

/-- An error where it stands for a text, as in entries of a log. -/
def text (files : Files) (d : Diagnostic) : String := render .plain files d

/-- A phase's errors and their number as text. -/
def renderReport (p : Palette) (files : Files) (phase : String) (errors : List Diagnostic) :
    String :=
  String.intercalate "\n" (renderAll p files errors ++ [abortingText p phase errors.length])

/-! What the terminal is shown of errors that nobody caught. -/

/-- Environment variables; the last of a name counts. -/
abbrev Environment := List (String × String)

def Environment.get? (env : Environment) (name : String) : Option String :=
  (env.reverse.find? (·.1 == name)).map (·.2)

/-- A variable that switches something on. -/
def Environment.flag (env : Environment) (name : String) : Bool :=
  ["1", "true", "yes"].contains (Text.lower ((env.get? name).getD ""))

/-- What is known about the stream that errors go to. -/
structure Terminal where
  interactive : Bool

/-- Colours if they are forced, otherwise none if they are refused, and else on a terminal. -/
def useColors (env : Environment) (t : Terminal) : Bool :=
  if env.flag "STATEWIRE_FORCE_COLOR" then true
  else if (env.get? "NO_COLOR").isSome then false
  else t.interactive

/-- What is printed for an error that nobody caught; `none` leaves it to the usual way. -/
def uncaught (env : Environment) (t : Terminal) (files : Files) : Option Diagnostic → Option String
  | none => none
  | some d =>
    if env.flag "STATEWIRE_PLAIN_ERRORS" then none
    else some (render (if useColors env t then .colored else .plain) files d ++ "\n")

/-- Who shows uncaught errors. -/
inductive Handler
  | usual
  | own
deriving DecidableEq

def Handler.name : Handler → String
  | .usual => "original"
  | .own => "statewire"

end WorkflowClient.Diagnostic
