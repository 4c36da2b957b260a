import WorkflowClient.Diagnostic.Basic

/-! The errors that the client itself reports, with their texts. -/
namespace WorkflowClient.Diagnostic

/-- A name as messages show it. -/
def tick (s : String) : String := "'" ++ s ++ "'"

def duplicateTypes (types : List String) : Diagnostic :=
  let names := String.intercalate ", " (types.map tick)
  .single (.duplicateTypes types)
    { message := "duplicate workflow type " ++ names
      code := some .duplicateType
      notes := ["workflow type registered more than once: " ++ names]
      help := some "each workflow type name must be unique within a registry" }

def noName : Diagnostic :=
  .single .definition
    { message := "workflow type name must be non-empty"
      code := some .noName
      help := some "pass name='<WorkflowType>' to WorkflowTypeModel" }

/-- The parts of a declaration whose names have to differ. -/
inductive Part
  | state
  | channel
  | attribute
deriving DecidableEq

def Part.text : Part → String
  | .state => "state id"
  | .channel => "signal channel"
  | .attribute => "query attribute"

def Part.duplicateCode : Part → Code
  | .state => .duplicateState
  | .channel => .duplicateChannel
  | .attribute => .duplicateAttribute

def duplicatePart (part : Part) (type name : String) : Diagnostic :=
  .single .definition
    { message := "duplicate " ++ part.text ++ " " ++ tick name
      code := some part.duplicateCode
      notes := ["workflow type: " ++ tick type]
      help := some ("each " ++ part.text ++ " must be unique within a workflow type") }

/-- A part whose values are of a type that cannot be checked. -/
def unsupportedType (part : Part) (name typeName : String) : Diagnostic :=
  .single .definition
    { message := "unsupported value type " ++ typeName ++ " for " ++ part.text ++ " " ++ tick name
      code := some .unsupportedType
      notes := [typeName ++ " has no pydantic schema, so its values cannot be encoded"]
      help := some ("use a pydantic model, a dataclass, an enum, a JSON primitive " ++
        "or a container of those") }

/-- A setting that is not an absolute URL. -/
def invalidUrl (field value : String) : Diagnostic :=
  .single .configuration
    { message := "invalid " ++ field
      code := some .invalidUrl
      notes := ["got " ++ field ++ "=" ++ Text.quoted value]
      help := some "use an absolute URL such as 'http://localhost:8801'" }

/-- A timeout that is out of range; `rule` says what it must be. -/
def invalidTimeout (field rule value : String) (help : Option String) : Diagnostic :=
  .single .configuration
    { message := field ++ " must be " ++ rule
      code := some .invalidTimeout
      notes := ["got " ++ field ++ "=" ++ value]
      help := help }

def typeNotRegistered (type : String) : Diagnostic :=
  .single (.typeNotRegistered type)
    { message := "workflow type " ++ tick type ++ " is not registered"
      code := some .typeNotRegistered
      notes := ["requested workflow type: " ++ tick type]
      help := some "add the WorkflowTypeModel to the list passed to Registry.build()" }

def invalidStart (type state : String) (declared : Bool) : Diagnostic :=
  let reason :=
    if declared then "is not a starting state" else "is not declared for this workflow"
  .single (.invalidStart type state)
    { message := "invalid start state " ++ tick state
      code := some .invalidStart
      notes := ["state " ++ tick state ++ " of workflow type " ++ tick type ++ " " ++ reason]
      help := some "declare the state with StateDef.starting('<id>') to start from it" }

def channelNotRegistered (type channel : String) : Diagnostic :=
  .single (.channelNotRegistered type channel)
    { message := "workflow type " ++ tick type ++ " has no signal channel " ++ tick channel
      code := some .channelNotRegistered
      help := some "declare the channel with SignalChannelDef on the workflow type model" }

def signalMismatch (channel expected actual : String) : Diagnostic :=
  .single (.signalMismatch channel expected actual)
    { message := "signal value for channel " ++ tick channel ++ " is not of type " ++ expected
      code := some .signalMismatch
      notes := ["expected: " ++ expected, "got: " ++ actual] }

def unknownAttributes (type : String) (keys : List String) : Diagnostic :=
  .single (.unknownAttributes type keys)
    { message := "query attributes not registered: " ++ String.intercalate ", " keys
      code := some .unknownAttributes
      notes := ["workflow type: " ++ tick type]
      help := some "declare the keys with QueryAttributeDef, or request all attributes" }

def multipleCompletions (workflow : Value) (count : Int) : Diagnostic :=
  .single (.multipleCompletions workflow count)
    { message := "workflow " ++ tick workflow.text ++ " completed with " ++ toString count ++
        " state outputs"
      code := some .multipleCompletions
      notes := ["the simple result API requires one or zero completion states"]
      help := some "use get_complex_workflow_result_with_wait() for this workflow" }

def missingOutput (workflow : Value) (state : String) : Diagnostic :=
  .single (.missingOutput workflow state)
    { message := "completion state " ++ tick state ++ " of workflow " ++ tick workflow.text ++
        " has no output"
      code := some .missingOutput
      help := some "use get_complex_workflow_result_with_wait() to inspect raw completions" }

def malformedResponse (operation field : String) : Diagnostic :=
  .single (.malformedResponse operation field)
    { message := operation ++ " response is missing " ++ tick field
      code := some .malformedResponse }

def decodeFailed (target : String) (details : List String) : Diagnostic :=
  .single (.decodeFailed target)
    { message := "cannot decode payload into " ++ target
      code := some .decodeFailed
      notes := details }

def encodeFailed (typeName : String) : Diagnostic :=
  .single (.encodeFailed typeName)
    { message := "cannot encode value of type " ++ typeName
      code := some .encodeFailed
      help := some "use JSON primitives, pydantic models, dataclasses, enums or datetimes" }

end WorkflowClient.Diagnostic
