import WorkflowClient.Diagnostic.Causes

/-! What callers see of the errors that the client reports. -/
namespace WorkflowClient.Diagnostic

/-- The class of an error with what it carries, its name, its number, its text, its notes and its
help. -/
structure View where
  kind : Kind
  name : String
  number : String
  text : String
  notes : List String := []
  help : Option String := none

/-- The error is a single one, and that is all that callers see of it. -/
structure Shows (d : Diagnostic) (v : View) : Prop where
  name : v.kind.name = v.name
  all : ∃ code : Code, code.text = v.number ∧
    d = .single v.kind { message := v.text, code, notes := v.notes, help := v.help }

theorem Shows.message {d : Diagnostic} {v : View} (h : d.Shows v) : d.message = v.text := by
  obtain ⟨code, -, rfl⟩ := h.all
  rfl

namespace View

def duplicateTypes (types : List String) : View :=
  let listed := String.intercalate ", " (types.map fun type => "'" ++ type ++ "'")
  { kind := .duplicateTypes types
    name := "DuplicateWorkflowTypeError"
    number := "E300"
    text := "duplicate workflow type " ++ listed
    notes := ["workflow type registered more than once: " ++ listed]
    help := some "each workflow type name must be unique within a registry" }

def noName : View where
  kind := .definition
  name := "WorkflowDefinitionError"
  number := "E001"
  text := "workflow type name must be non-empty"
  help := some "pass name='<WorkflowType>' to WorkflowTypeModel"

/-- A kind of part repeats a name. -/
def duplicatePart (number what type name : String) : View where
  kind := .definition
  name := "WorkflowDefinitionError"
  number := number
  text := "duplicate " ++ what ++ " " ++ ("'" ++ name ++ "'")
  notes := ["workflow type: " ++ ("'" ++ type ++ "'")]
  help := some ("each " ++ what ++ " must be unique within a workflow type")

def unsupportedType (what name typeName : String) : View where
  kind := .definition
  name := "WorkflowDefinitionError"
  number := "E005"
  text := "unsupported value type " ++ typeName ++ " for " ++ what ++ " " ++ ("'" ++ name ++ "'")
  notes := [typeName ++ " has no pydantic schema, so its values cannot be encoded"]
  help := some ("use a pydantic model, a dataclass, an enum, a JSON primitive " ++
    "or a container of those")

def typeNotRegistered (type : String) : View where
  kind := .typeNotRegistered type
  name := "WorkflowTypeNotRegisteredError"
  number := "E100"
  text := "workflow type " ++ ("'" ++ type ++ "'") ++ " is not registered"
  notes := ["requested workflow type: " ++ ("'" ++ type ++ "'")]
  help := some "add the WorkflowTypeModel to the list passed to Registry.build()"

/-- A start is refused, for a reason. -/
def invalidStart (type state reason : String) : View where
  kind := .invalidStart type state
  name := "InvalidStartStateError"
  number := "E101"
  text := "invalid start state " ++ ("'" ++ state ++ "'")
  notes := ["state " ++ ("'" ++ state ++ "'") ++ " of workflow type " ++ ("'" ++ type ++ "'") ++
    " " ++ reason]
  help := some "declare the state with StateDef.starting('<id>') to start from it"

def channelNotRegistered (type channel : String) : View where
  kind := .channelNotRegistered type channel
  name := "SignalChannelNotRegisteredError"
  number := "E102"
  text := "workflow type " ++ ("'" ++ type ++ "'") ++ " has no signal channel " ++
    ("'" ++ channel ++ "'")
  help := some "declare the channel with SignalChannelDef on the workflow type model"

def signalMismatch (channel expected actual : String) : View where
  kind := .signalMismatch channel expected actual
  name := "SignalTypeMismatchError"
  number := "E103"
  text := "signal value for channel " ++ ("'" ++ channel ++ "'") ++ " is not of type " ++ expected
  notes := ["expected: " ++ expected, "got: " ++ actual]

def unknownAttributes (type : String) (keys : List String) : View where
  kind := .unknownAttributes type keys
  name := "UnknownQueryAttributesError"
  number := "E104"
  text := "query attributes not registered: " ++ String.intercalate ", " keys
  notes := ["workflow type: " ++ ("'" ++ type ++ "'")]
  help := some "declare the keys with QueryAttributeDef, or request all attributes"

def multipleCompletions (workflowId : String) (count : Nat) : View where
  kind := .multipleCompletions (.str workflowId) count
  name := "MultipleCompletionStatesError"
  number := "E400"
  text := "workflow " ++ ("'" ++ workflowId ++ "'") ++ " completed with " ++
    toString (count : Int) ++ " state outputs"
  notes := ["the simple result API requires one or zero completion states"]
  help := some "use get_complex_workflow_result_with_wait() for this workflow"

def missingOutput (workflowId state : String) : View where
  kind := .missingOutput (.str workflowId) state
  name := "MissingOutputError"
  number := "E401"
  text := "completion state " ++ ("'" ++ state ++ "'") ++ " of workflow " ++
    ("'" ++ workflowId ++ "'") ++ " has no output"
  help := some "use get_complex_workflow_result_with_wait() to inspect raw completions"

def malformedResponse (operation field : String) : View where
  kind := .malformedResponse operation field
  name := "MalformedServerResponseError"
  number := "E402"
  text := operation ++ " response is missing " ++ ("'" ++ field ++ "'")

def decodeFailed (target : String) (details : List String) : View where
  kind := .decodeFailed target
  name := "DecodeError"
  number := "E500"
  text := "cannot decode payload into " ++ target
  notes := details

def encodeFailed (typeName : String) : View where
  kind := .encodeFailed typeName
  name := "EncodeError"
  number := "E501"
  text := "cannot encode value of type " ++ typeName
  help := some "use JSON primitives, pydantic models, dataclasses, enums or datetimes"

end View

theorem shows_duplicateTypes (types : List String) :
    (duplicateTypes types).Shows (.duplicateTypes types) :=
  ⟨rfl, _, rfl, rfl⟩

theorem shows_noName : noName.Shows .noName :=
  ⟨rfl, _, rfl, rfl⟩

theorem shows_duplicatePart (part : Part) (type name : String) :
    (duplicatePart part type name).Shows
      (.duplicatePart part.duplicateCode.text part.text type name) :=
  ⟨rfl, _, rfl, rfl⟩

theorem shows_unsupportedType (part : Part) (name typeName : String) :
    (unsupportedType part name typeName).Shows (.unsupportedType part.text name typeName) :=
  ⟨rfl, _, rfl, rfl⟩

theorem shows_typeNotRegistered (type : String) :
    (typeNotRegistered type).Shows (.typeNotRegistered type) :=
  ⟨rfl, _, rfl, rfl⟩

theorem shows_invalidStart_undeclared (type state : String) :
    (invalidStart type state false).Shows
      (.invalidStart type state "is not declared for this workflow") :=
  ⟨rfl, _, rfl, rfl⟩

theorem shows_invalidStart_declared (type state : String) :
    (invalidStart type state true).Shows (.invalidStart type state "is not a starting state") :=
  ⟨rfl, _, rfl, rfl⟩

theorem shows_channelNotRegistered (type channel : String) :
    (channelNotRegistered type channel).Shows (.channelNotRegistered type channel) :=
  ⟨rfl, _, rfl, rfl⟩

theorem shows_signalMismatch (channel expected actual : String) :
    (signalMismatch channel expected actual).Shows (.signalMismatch channel expected actual) :=
  ⟨rfl, _, rfl, rfl⟩

theorem shows_unknownAttributes (type : String) (keys : List String) :
    (unknownAttributes type keys).Shows (.unknownAttributes type keys) :=
  ⟨rfl, _, rfl, rfl⟩

theorem shows_multipleCompletions (workflowId : String) (count : Nat) :
    (multipleCompletions (.str workflowId) count).Shows (.multipleCompletions workflowId count) :=
  ⟨rfl, _, rfl, rfl⟩

theorem shows_missingOutput (workflowId state : String) :
    (missingOutput (.str workflowId) state).Shows (.missingOutput workflowId state) :=
  ⟨rfl, _, rfl, rfl⟩

theorem shows_malformedResponse (operation field : String) :
    (malformedResponse operation field).Shows (.malformedResponse operation field) :=
  ⟨rfl, _, rfl, rfl⟩

theorem shows_decodeFailed (target : String) (details : List String) :
    (decodeFailed target details).Shows (.decodeFailed target details) :=
  ⟨rfl, _, rfl, rfl⟩

theorem shows_encodeFailed (typeName : String) :
    (encodeFailed typeName).Shows (.encodeFailed typeName) :=
  ⟨rfl, _, rfl, rfl⟩

end WorkflowClient.Diagnostic
