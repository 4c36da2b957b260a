import WorkflowClient.Message.Reading
import WorkflowClient.Validation.Check

/-! Resetting a run: the point in its history where the new run forks off, the request made of it,
and the answer. -/
namespace WorkflowClient.Message
open Validation

inductive ResetType
  | historyEvent
  | badBinary
  | completedTime
  | lastCompleted
deriving DecidableEq

namespace ResetType

def all : List ResetType := [.historyEvent, .badBinary, .completedTime, .lastCompleted]

def text : ResetType → String
  | .historyEvent => "HistoryEventId"
  | .badBinary => "BadBinary"
  | .completedTime => "DecisionCompletedTime"
  | .lastCompleted => "LastDecisionCompleted"

def name : ResetType → String
  | .historyEvent => "HISTORY_EVENT_ID"
  | .badBinary => "BAD_BINARY"
  | .completedTime => "DECISION_COMPLETED_TIME"
  | .lastCompleted => "LAST_DECISION_COMPLETED"

def choices : Choices ResetType := ⟨"ResetType", all, name, text⟩

def ofText? (s : String) : Option ResetType := all.find? (·.text == s)

/-- The class of the points of a type. -/
def pointClass (t : ResetType) : String := t.text ++ "Reset"

end ResetType

/-- Where to fork off: at an event, before a bad binary's first decision, after a time, or at the
last decision with an offset. -/
inductive ResetPoint
  | historyEvent (id : Int)
  | badBinary (checksum : String)
  | completedTime (earliest : String)
  | lastCompleted (offset : Int)
deriving DecidableEq

namespace ResetPoint

def type : ResetPoint → ResetType
  | .historyEvent _ => .historyEvent
  | .badBinary _ => .badBinary
  | .completedTime _ => .completedTime
  | .lastCompleted _ => .lastCompleted

/-- The field that belongs to a point's type. -/
def ownField : ResetPoint → String × Value
  | .historyEvent id => ("history_event_id", .int id)
  | .badBinary checksum => ("reset_bad_binary_checksum", .str checksum)
  | .completedTime earliest => ("earliest_time", .str earliest)
  | .lastCompleted offset => ("decision_offset", .int offset)

def fields (p : ResetPoint) : List (String × Value) :=
  [("reset_type", ResetType.choices.toValue p.type), p.ownField]

/-- The own field of each type. Only the last decision needs none. -/
def ownReading : ResetType → Reading ResetPoint
  | .historyEvent => .historyEvent <$> required "history_event_id" integer
  | .badBinary => .badBinary <$> required "reset_bad_binary_checksum" text
  | .completedTime => .completedTime <$> required "earliest_time" text
  | .lastCompleted => .lastCompleted <$> optional "decision_offset" 0 integer

/-- The type itself, or its text. -/
def typeTag (t : ResetType) (v : Value) : Checked Unit :=
  (checkLiteral v [ResetType.choices.toValue t]).map fun _ => ()

/-- Points of one type. A type that is given has to be this one. -/
def shape (t : ResetType) : Shape ResetPoint where
  className := t.pointClass
  reading := (fun _ p => p) <$> optional "reset_type" () (typeTag t) <*> ownReading t
  fields := fields

/-- Values that can never have a type's field: those of classes that come with the language. -/
def isBasic : Value → Bool
  | .record .. | .member .. | .uuid _ | .decimal _ | .instance _ => false
  | .classObject kind _ => kind = .ordinary
  | _ => true

/-- The type that members name, first under its own name, then under its wire name. -/
def tag? (ms : Members) : Option Value := (find? ms ["reset_type", "resetType"]).map (·.2)

def ofTagged (tag : Option Value) (v : Value) : Checked ResetPoint :=
  match tag with
  | none => fault .tagNotFound
  | some tag => match tag.text?.bind ResetType.ofText? with
    | none => fault .tagInvalid
    | some t => ((shape t).ofValue v).below (.name t.text)

/-- A point of any type, from a dict or an instance that names its type. -/
def ofValue (v : Value) : Checked ResetPoint :=
  match v with
  | .dict entries => ofTagged (tag? (membersOf entries)) v
  | .record .model _ ms => ofTagged (tag? ms) v
  | v => fault (if isBasic v then .modelAttributesType else .tagNotFound)

end ResetPoint

structure ResetRequest where
  workflowId : String
  runId : Option String := none
  type : ResetType
  historyEventId : Option Int := none
  badBinaryChecksum : Option String := none
  earliestTime : Option String := none
  decisionOffset : Option Int := none
  reason : Option String := none
  skipSignalReapply : Bool := false
deriving DecidableEq

/-- An optional integer as a value. -/
def ofInt? : Option Int → Value
  | none => .none
  | some n => .int n

def ResetRequest.shape : Shape ResetRequest where
  className := "WorkflowResetRequest"
  reading := ResetRequest.mk <$> required "workflow_id" text <*>
    optional "workflow_run_id" none (nullable text) <*>
    required "reset_type" (choice ResetType.choices) <*>
    optional "history_event_id" none (nullable integer) <*>
    optional "reset_bad_binary_checksum" none (nullable text) <*>
    optional "earliest_time" none (nullable text) <*>
    optional "decision_offset" none (nullable integer) <*>
    optional "reason" none (nullable text) <*> optional "skip_signal_reapply" false truth
  fields r :=
    [("workflow_id", .str r.workflowId), ("workflow_run_id", ofText? r.runId),
      ("reset_type", ResetType.choices.toValue r.type),
      ("history_event_id", ofInt? r.historyEventId),
      ("reset_bad_binary_checksum", ofText? r.badBinaryChecksum),
      ("earliest_time", ofText? r.earliestTime), ("decision_offset", ofInt? r.decisionOffset),
      ("reason", ofText? r.reason), ("skip_signal_reapply", .bool r.skipSignalReapply)]

structure ResetResponse where
  runId : Option String := none
deriving DecidableEq

def ResetResponse.shape : Shape ResetResponse where
  className := "WorkflowResetResponse"
  reading := ResetResponse.mk <$> optional "workflow_run_id" none (nullable text)
  fields r := [("workflow_run_id", ofText? r.runId)]

end WorkflowClient.Message
