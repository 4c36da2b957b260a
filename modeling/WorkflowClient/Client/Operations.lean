import WorkflowClient.Client.Run
import WorkflowClient.Options
import WorkflowClient.Registry

/-! The operations of a client. Each checks its arguments against what was declared, encodes
payloads, makes its one call, and decodes the answer. -/
namespace WorkflowClient
open Message
open Diagnostic (tick)

structure Client where
  catalog : Catalog
  registry : Registry
  options : Options := {}

/-- How the outputs of a run are handed over: the only one decoded, or all as they are. -/
inductive ResultMode
  | simple
  | complex
deriving DecidableEq

def ResultMode.ofName? : String → Option ResultMode
  | "SIMPLE" => some .simple
  | "COMPLEX" => some .complex
  | _ => none

/-- Keys of attributes: a list of them, or the characters of a text. -/
inductive Keys
  | list (keys : List String)
  | characters (text : String)

def Keys.toList : Keys → List String
  | .list keys => keys
  | .characters text => text.toList.map fun c => String.ofList [c]

/-- The name of a field of an answer. -/
def runIdField : String := "workflowRunId"

namespace Client
variable (c : Client) (service : Service)

/-- The run that an answer names. -/
def namedRun (operation : String) : Option String → Run String
  | some runId => pure runId
  | none => Run.fail (.diagnostic (.malformedResponse operation runIdField))

/-- The request for a start in a state that is declared as a starting one. The timeout is the one
given, or that of the client's options. -/
def startRequest (type state : String) (workflowId : Value) (options : Option StartOptions)
    (input : Value) : Run StartRequest :=
  let declared := c.registry.state? type state
  if declared.any (·.canStart) then do
    let timeout := match options with
      | some o => o.workflowTimeout
      | none => c.options.workflowTimeout
    let payload ← Run.encode c.catalog input
    let request ← Run.checked (StartRequest.shape.ofMembers
      [("workflow_id", workflowId), ("iwf_worker_url", .str c.options.workerUrl),
        ("iwf_workflow_type", .str type), ("workflow_timeout_seconds", .int timeout),
        ("start_state_id", .str state), ("state_input", ofText? payload)])
    let id ← Run.shown workflowId
    Run.debug ("Starting workflow " ++ tick id ++ " of type " ++ tick type ++ " at state " ++
      tick state)
    pure request
  else Run.reject (.invalidStart type state declared.isSome)

/-- Starts a run. -/
def start (type state : String) (workflowId : Value) (options : Option StartOptions)
    (input : Value) : Run String := do
  let request ← c.startRequest type state workflowId options input
  let response ← Run.call (.start request) (service.start request)
  namedRun "start" response.runId

/-- The request for the outputs of a run. -/
def getRequest (workflowId runId : Value) : Run GetRequest := do
  let id ← Run.shown workflowId
  Run.debug ("Waiting for result of workflow " ++ tick id)
  Run.checked (GetRequest.shape.ofMembers
    [("workflow_id", workflowId), ("workflow_run_id", runId), ("needs_results", .bool true)])

/-- Waits for the end of a run. -/
def outputs (workflowId runId : Value) : Run (List StateOutput) := do
  let request ← getRequest workflowId runId
  let response ← Run.call (.getWithWait request) (service.getWithWait request)
  pure (response.results.getD [])

/-- The decoded output of the only state that ended a run; the null value if there is none. -/
def onlyOutput (s : Descriptors) (workflowId : Value) (target : Target) :
    List StateOutput → Run Value × Descriptors
  | [] => (pure .none, s)
  | [o] => match o.payload with
    | none => (Run.fail (.diagnostic (.missingOutput workflowId o.stateId)), s)
    | some payload =>
      let (decoded, s) := Payload.decode c.catalog s (some payload) target
      (Run.decoded decoded, s)
  | os => (Run.fail (.diagnostic (.multipleCompletions workflowId os.length)), s)

/-- What the outputs of a run come to in the mode of that name. -/
def shaped (s : Descriptors) (workflowId : Value) (mode : String) (target : Target)
    (os : List StateOutput) : Run Value × Descriptors :=
  match ResultMode.ofName? mode with
  | none => (Run.fail (.unknownMode mode), s)
  | some .complex => (pure (.sequence .list (os.map StateOutput.shape.toValue)), s)
  | some .simple => c.onlyOutput s workflowId target os

/-- Waits for the end of a run and hands over its result. The mode is looked at last. -/
def result (s : Descriptors) (workflowId runId : Value) (mode : String) (target : Target) :
    Run Value × Descriptors :=
  let run := outputs service workflowId runId
  match run.result with
  | .error e => (⟨.error e, run.calls, run.log⟩, s)
  | .ok os =>
    let (value, s) := c.shaped s workflowId mode target os
    (⟨value.result, run.calls ++ value.calls, run.log ++ value.log⟩, s)

/-- The request that carries a value on a declared channel, if it is of the channel's type as it
stands. -/
def signalRequest (type : String) (workflowId runId : Value) (channel : String) (value : Value) :
    Run SignalRequest :=
  match c.registry.get? type with
  | none => Run.reject (.typeNotRegistered type)
  | some t => match t.channelType? channel with
    | none => Run.reject (.channelNotRegistered type channel)
    | some d => match d.accepts c.catalog value with
      | .error e => Run.fail (.raised e)
      | .ok false => Run.reject (.signalMismatch channel d.name value.className)
      | .ok true => do
        let id ← Run.shown workflowId
        Run.debug ("Signalling workflow " ++ tick id ++ " on " ++ tick channel)
        let payload ← Run.encode c.catalog value
        Run.checked (SignalRequest.shape.ofMembers
          [("workflow_id", workflowId), ("workflow_run_id", runId),
            ("signal_channel_name", .str channel), ("signal_value", ofText? payload)])

/-- Sends a value on a channel. -/
def signal (type : String) (workflowId runId : Value) (channel : String) (value : Value) :
    Run Unit := do
  let request ← c.signalRequest type workflowId runId channel value
  Run.call (.signal request) (service.signal request)

/-- The request for a new run from a point. The fields of the point are passed on as they are. -/
def resetRequest (workflowId runId point reason skipSignalReapply : Value) : Run ResetRequest := do
  let p ← Run.checked (ResetPoint.ofValue point)
  let request ← Run.checked (ResetRequest.shape.ofMembers
    ([("workflow_id", workflowId), ("workflow_run_id", runId), ("reason", reason),
      ("skip_signal_reapply", skipSignalReapply)] ++ p.fields))
  let id ← Run.shown workflowId
  Run.debug ("Resetting workflow " ++ tick id ++ " (" ++ request.type.text ++ ")")
  pure request

/-- Forks off a new run. -/
def reset (workflowId runId point reason skipSignalReapply : Value) : Run String := do
  let request ← resetRequest workflowId runId point reason skipSignalReapply
  let response ← Run.call (.reset request) (service.reset request)
  namedRun "reset" response.runId

/-- The descriptor for an attribute of an answer; that of anything if it is not declared. -/
def attributeType (t : WorkflowType) (key : String) : Run Descriptor :=
  match t.attributeType? key with
  | some d => pure d
  | none => do
    Run.warning ("Service returned unregistered query attribute " ++ tick key ++
      " for workflow type " ++ tick t.name ++ "; decoding as Any")
    pure .any

/-- The attributes that have a value, in the order of their first occurrence with their last
value. -/
def decodeAttributes (t : WorkflowType) (found : List (String × Value)) :
    List KeyValue → Run (List (String × Value))
  | [] => pure found
  | kv :: rest => match kv.value with
    | none => decodeAttributes t found rest
    | some payload => do
      let d ← attributeType t kv.key
      let v ← Run.decoded (Payload.decodeWith c.catalog d (some payload))
      decodeAttributes t (Json.put kv.key v found) rest

/-- The request for the attributes with the keys, or for all if there are none, and the type that
declares them. -/
def attributesRequest (type : String) (workflowId runId : Value) (keys : Option Keys) :
    Run (WorkflowType × AttributesRequest) :=
  match c.registry.get? type with
  | none => Run.reject (.typeNotRegistered type)
  | some t =>
    let asked := match keys with
      | some ks => ks.toList
      | none => []
    match asked.filter fun k => (t.attributeType? k).isNone with
    | [] => do
      let id ← Run.shown workflowId
      Run.debug ("Querying attributes of workflow " ++ tick id)
      let request ← Run.checked (AttributesRequest.shape.ofMembers
        [("workflow_id", workflowId), ("workflow_run_id", runId),
          ("attribute_keys", if asked.isEmpty then .none else .sequence .list (asked.map .str))])
      pure (t, request)
    | unknown => Run.reject (.unknownAttributes type unknown)

/-- The decoded attributes of an answer. -/
def attributesOf (t : WorkflowType) (response : AttributesResponse) :
    Run (List (String × Value)) :=
  match response.attributes with
  | none => Run.fail (.diagnostic (.malformedResponse "query attributes" "queryAttributes"))
  | some kvs => c.decodeAttributes t [] kvs

/-- Asks for attributes. -/
def query (type : String) (workflowId runId : Value) (keys : Option Keys) :
    Run (List (String × Value)) := do
  let (t, request) ← c.attributesRequest type workflowId runId keys
  let response ← Run.call (.queryAttributes request) (service.queryAttributes request)
  c.attributesOf t response

end Client

/-! The operations of a client with their arguments. -/

inductive Operation
  | start (type state : String) (workflowId : Value) (options : Option StartOptions)
      (input : Value)
  | result (workflowId runId : Value) (mode : String) (target : Target)
  | signal (type : String) (workflowId runId : Value) (channel : String) (value : Value)
  | reset (workflowId runId point reason skipSignalReapply : Value)
  | query (type : String) (workflowId runId : Value) (keys : Option Keys)

namespace Run

def map {α β : Type} (f : α → β) (r : Run α) : Run β := ⟨r.result.map f, r.calls, r.log⟩

end Run

/-- Attributes by key as a value. -/
def attributesValue (found : List (String × Value)) : Value :=
  .dict (found.map fun e => (.str e.1, e.2))

/-- Carries an operation out on a service. Only the result of a run can change the descriptors. -/
def Client.perform (c : Client) (service : Service) (s : Descriptors) :
    Operation → Run Value × Descriptors
  | .start type state workflowId options input =>
    ((c.start service type state workflowId options input).map .str, s)
  | .result workflowId runId mode target => c.result service s workflowId runId mode target
  | .signal type workflowId runId channel value =>
    ((c.signal service type workflowId runId channel value).map fun _ => .none, s)
  | .reset workflowId runId point reason skip =>
    ((reset service workflowId runId point reason skip).map .str, s)
  | .query type workflowId runId keys =>
    ((c.query service type workflowId runId keys).map attributesValue, s)

end WorkflowClient
