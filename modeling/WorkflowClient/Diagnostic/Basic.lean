import WorkflowClient.Value.Text

/-! Errors of the client: what went wrong, and what is said about it. -/
namespace WorkflowClient

/-- The numbered causes, by area in steps of a hundred. -/
inductive Code
  | noName
  | duplicateState
  | duplicateChannel
  | duplicateAttribute
  | unsupportedType
  | typeNotRegistered
  | invalidStart
  | channelNotRegistered
  | signalMismatch
  | unknownAttributes
  | invalidUrl
  | invalidTimeout
  | duplicateType
  | multipleCompletions
  | missingOutput
  | malformedResponse
  | decodeFailed
  | encodeFailed
deriving DecidableEq

def Code.text : Code → String
  | .noName => "E001"
  | .duplicateState => "E002"
  | .duplicateChannel => "E003"
  | .duplicateAttribute => "E004"
  | .unsupportedType => "E005"
  | .typeNotRegistered => "E100"
  | .invalidStart => "E101"
  | .channelNotRegistered => "E102"
  | .signalMismatch => "E103"
  | .unknownAttributes => "E104"
  | .invalidUrl => "E200"
  | .invalidTimeout => "E201"
  | .duplicateType => "E300"
  | .multipleCompletions => "E400"
  | .missingOutput => "E401"
  | .malformedResponse => "E402"
  | .decodeFailed => "E500"
  | .encodeFailed => "E501"

def Code.all : List Code :=
  [.noName, .duplicateState, .duplicateChannel, .duplicateAttribute, .unsupportedType,
    .typeNotRegistered, .invalidStart, .channelNotRegistered, .signalMismatch, .unknownAttributes,
    .invalidUrl, .invalidTimeout, .duplicateType, .multipleCompletions, .missingOutput,
    .malformedResponse, .decodeFailed, .encodeFailed]

def Code.ofText? (s : String) : Option Code := Code.all.find? (·.text == s)

/-- A line of a source file. -/
structure Location where
  file : String
  line : Int

def Location.short (l : Location) : String := l.file ++ ":" ++ toString l.line

/-- Areas of errors, and the causes that carry what they are about. -/
inductive Kind
  | general
  | definition
  | configuration
  | registry
  | callValidation
  | responseShape
  | codec
  | duplicateTypes (types : List String)
  | typeNotRegistered (type : String)
  | invalidStart (type state : String)
  | channelNotRegistered (type channel : String)
  | signalMismatch (channel expected actual : String)
  | unknownAttributes (type : String) (keys : List String)
  | multipleCompletions (workflow : Value) (count : Int)
  | missingOutput (workflow : Value) (state : String)
  | malformedResponse (operation field : String)
  | decodeFailed (target : String)
  | encodeFailed (typeName : String)

namespace Kind

/-- The area that a cause belongs to. -/
def area : Kind → Kind
  | .duplicateTypes _ => .registry
  | .typeNotRegistered _ | .invalidStart .. | .channelNotRegistered .. | .signalMismatch ..
  | .unknownAttributes .. => .callValidation
  | .multipleCompletions .. | .missingOutput .. | .malformedResponse .. => .responseShape
  | .decodeFailed _ | .encodeFailed _ => .codec
  | k => k

def name : Kind → String
  | .general => "StatewireError"
  | .definition => "WorkflowDefinitionError"
  | .configuration => "ConfigurationError"
  | .registry => "RegistryError"
  | .callValidation => "ClientValidationError"
  | .responseShape => "ResponseShapeError"
  | .codec => "CodecError"
  | .duplicateTypes _ => "DuplicateWorkflowTypeError"
  | .typeNotRegistered _ => "WorkflowTypeNotRegisteredError"
  | .invalidStart .. => "InvalidStartStateError"
  | .channelNotRegistered .. => "SignalChannelNotRegisteredError"
  | .signalMismatch .. => "SignalTypeMismatchError"
  | .unknownAttributes .. => "UnknownQueryAttributesError"
  | .multipleCompletions .. => "MultipleCompletionStatesError"
  | .missingOutput .. => "MissingOutputError"
  | .malformedResponse .. => "MalformedServerResponseError"
  | .decodeFailed _ => "DecodeError"
  | .encodeFailed _ => "EncodeError"

/-- The names of the wider kinds, nearest first. -/
def wider (k : Kind) : List String :=
  match k with
  | .general => []
  | _ => if k.area.name = k.name then [Kind.general.name] else [k.area.name, Kind.general.name]

/-- Errors of a call that does not fit what was declared are errors about a value. -/
def aboutValue (k : Kind) : Bool :=
  match k.area with
  | .callValidation => true
  | _ => false

end Kind

/-- What every error carries. -/
structure Header where
  message : String
  code : Option Code := none
  notes : List String := []
  help : Option String := none
  location : Option Location := none

/-- One error, or the report of a phase that found several. -/
inductive Diagnostic
  | single (kind : Kind) (header : Header)
  | multiple (header : Header) (phase : String) (errors : List Diagnostic)

namespace Diagnostic

def header : Diagnostic → Header
  | .single _ h => h
  | .multiple h _ _ => h

def mapHeader (f : Header → Header) : Diagnostic → Diagnostic
  | .single k h => .single k (f h)
  | .multiple h p es => .multiple (f h) p es

def message (d : Diagnostic) : String := d.header.message

def withNote (d : Diagnostic) (note : String) : Diagnostic :=
  d.mapHeader fun h => { h with notes := h.notes ++ [note] }

def withHelp (d : Diagnostic) (help : String) : Diagnostic :=
  d.mapHeader fun h => { h with help := some help }

def name : Diagnostic → String
  | .single k _ => k.name
  | .multiple .. => "MultipleValidationErrors"

def wider : Diagnostic → List String
  | .single k _ => k.wider
  | .multiple .. => [Kind.general.name]

def aboutValue : Diagnostic → Bool
  | .single k _ => k.aboutValue
  | .multiple .. => false

def abortingMessage (count : Nat) : String :=
  "aborting due to " ++ toString count ++ " previous errors"

/-- The report of a phase; without a message of its own it says how many errors there are. -/
def report (header : Header) (phase : String) (errors : List Diagnostic) : Diagnostic :=
  if header.message.isEmpty then
    .multiple { header with message := abortingMessage errors.length } phase errors
  else .multiple header phase errors

/-- What a phase that found these errors raises: nothing, the only one, or their report. -/
def raised? (phase : String) : List Diagnostic → Option Diagnostic
  | [] => none
  | [d] => some d
  | ds => some (.multiple { message := abortingMessage ds.length } phase ds)

end Diagnostic
end WorkflowClient
