import WorkflowClient.Message.Reading

/-! What the service is asked about runs, and what it answers. -/
namespace WorkflowClient.Message

/-! Starting a run. -/

structure StartRequest where
  workflowId : String
  workerUrl : String
  workflowType : String
  timeoutSeconds : Int
  startState : String
  /-- The payload for the first state. -/
  input : Option String := none
deriving DecidableEq

def StartRequest.shape : Shape StartRequest where
  className := "WorkflowStartRequest"
  reading := StartRequest.mk <$> required "workflow_id" text <*> required "iwf_worker_url" text <*>
    required "iwf_workflow_type" text <*> required "workflow_timeout_seconds" integer <*>
    required "start_state_id" text <*> optional "state_input" none (nullable text)
  fields r :=
    [("workflow_id", .str r.workflowId), ("iwf_worker_url", .str r.workerUrl),
      ("iwf_workflow_type", .str r.workflowType),
      ("workflow_timeout_seconds", .int r.timeoutSeconds), ("start_state_id", .str r.startState),
      ("state_input", ofText? r.input)]

structure StartResponse where
  runId : Option String := none
deriving DecidableEq

def StartResponse.shape : Shape StartResponse where
  className := "WorkflowStartResponse"
  reading := StartResponse.mk <$> optional "workflow_run_id" none (nullable text)
  fields r := [("workflow_run_id", ofText? r.runId)]

/-! Waiting for the end of a run: what is asked, and the outputs of the states that ended it. -/

inductive RunStatus
  | running
  | completed
  | failed
  | timeout
  | canceled
  | terminated
  | continuedAsNew
deriving DecidableEq

namespace RunStatus

def all : List RunStatus :=
  [.running, .completed, .failed, .timeout, .canceled, .terminated, .continuedAsNew]

def text : RunStatus → String
  | .running => "RUNNING"
  | .completed => "COMPLETED"
  | .failed => "FAILED"
  | .timeout => "TIMEOUT"
  | .canceled => "CANCELED"
  | .terminated => "TERMINATED"
  | .continuedAsNew => "CONTINUED_AS_NEW"

/-- A status is named by its text. -/
def choices : Choices RunStatus := ⟨"WorkflowStatus", all, text, text⟩

end RunStatus

/-- What one of the states that ended a run left behind. -/
structure StateOutput where
  stateId : String
  payload : Option String := none
deriving DecidableEq

def StateOutput.shape : Shape StateOutput where
  className := "StateCompletionOutput"
  reading := StateOutput.mk <$> required "completed_state_id" text <*>
    optional "completed_state_output" none (nullable text)
  fields o :=
    [("completed_state_id", .str o.stateId), ("completed_state_output", ofText? o.payload)]

structure GetRequest where
  workflowId : String
  runId : Option String := none
  needsResults : Bool := true
deriving DecidableEq

def GetRequest.shape : Shape GetRequest where
  className := "WorkflowGetRequest"
  reading := GetRequest.mk <$> required "workflow_id" text <*>
    optional "workflow_run_id" none (nullable text) <*> optional "needs_results" true truth
  fields r :=
    [("workflow_id", .str r.workflowId), ("workflow_run_id", ofText? r.runId),
      ("needs_results", .bool r.needsResults)]

structure GetResponse where
  runId : Option String := none
  status : Option RunStatus := none
  results : Option (List StateOutput) := none
deriving DecidableEq

def GetResponse.shape : Shape GetResponse where
  className := "WorkflowGetResponse"
  reading := GetResponse.mk <$> optional "workflow_run_id" none (nullable text) <*>
    optional "workflow_status" none (nullable (choice RunStatus.choices)) <*>
    optional "results" none (nullable (list StateOutput.shape.ofValue))
  fields r :=
    [("workflow_run_id", ofText? r.runId),
      ("workflow_status", match r.status with
        | some s => RunStatus.choices.toValue s
        | none => .none),
      ("results", match r.results with
        | some os => .sequence .list (os.map StateOutput.shape.toValue)
        | none => .none)]

/-! Signalling a run. The service answers nothing. -/

structure SignalRequest where
  workflowId : String
  runId : Option String := none
  channel : String
  /-- The payload of the signal. -/
  value : Option String := none
deriving DecidableEq

def SignalRequest.shape : Shape SignalRequest where
  className := "WorkflowSignalRequest"
  reading := SignalRequest.mk <$> required "workflow_id" text <*>
    optional "workflow_run_id" none (nullable text) <*> required "signal_channel_name" text <*>
    optional "signal_value" none (nullable text)
  fields r :=
    [("workflow_id", .str r.workflowId), ("workflow_run_id", ofText? r.runId),
      ("signal_channel_name", .str r.channel), ("signal_value", ofText? r.value)]

/-! Querying the attributes of a run. -/

structure AttributesRequest where
  workflowId : String
  runId : Option String := none
  /-- Without keys, all attributes are asked for. -/
  keys : Option (List String) := none
deriving DecidableEq

def AttributesRequest.shape : Shape AttributesRequest where
  className := "WorkflowGetQueryAttributesRequest"
  reading := AttributesRequest.mk <$> required "workflow_id" text <*>
    optional "workflow_run_id" none (nullable text) <*>
    optional "attribute_keys" none (nullable (list text))
  fields r :=
    [("workflow_id", .str r.workflowId), ("workflow_run_id", ofText? r.runId),
      ("attribute_keys", match r.keys with
        | some ks => .sequence .list (ks.map .str)
        | none => .none)]

structure KeyValue where
  key : String
  value : Option String := none
deriving DecidableEq

def KeyValue.shape : Shape KeyValue where
  className := "KeyValue"
  reading := KeyValue.mk <$> required "key" text <*> optional "value" none (nullable text)
  fields kv := [("key", .str kv.key), ("value", ofText? kv.value)]

structure AttributesResponse where
  runId : Option String := none
  attributes : Option (List KeyValue) := none
deriving DecidableEq

def AttributesResponse.shape : Shape AttributesResponse where
  className := "WorkflowGetQueryAttributesResponse"
  reading := AttributesResponse.mk <$> optional "workflow_run_id" none (nullable text) <*>
    optional "query_attributes" none (nullable (list KeyValue.shape.ofValue))
  fields r :=
    [("workflow_run_id", ofText? r.runId),
      ("query_attributes", match r.attributes with
        | some kvs => .sequence .list (kvs.map KeyValue.shape.toValue)
        | none => .none)]

end WorkflowClient.Message
