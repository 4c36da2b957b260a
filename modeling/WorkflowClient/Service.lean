import WorkflowClient.Failure
import WorkflowClient.Message.Exchange
import WorkflowClient.Message.Reset

/-! The remote service as a client sees it: five calls, and what each is answered with. -/
namespace WorkflowClient
open Message

/-- One call on the service. -/
inductive Call
  | start (request : StartRequest)
  | getWithWait (request : GetRequest)
  | signal (request : SignalRequest)
  | reset (request : ResetRequest)
  | queryAttributes (request : AttributesRequest)
deriving DecidableEq

namespace Call

def name : Call → String
  | .start _ => "start"
  | .getWithWait _ => "get_with_wait"
  | .signal _ => "signal"
  | .reset _ => "reset"
  | .queryAttributes _ => "query_attributes"

/-- The body of the request. -/
def wire : Call → Json
  | .start r => StartRequest.shape.toWire r
  | .getWithWait r => GetRequest.shape.toWire r
  | .signal r => SignalRequest.shape.toWire r
  | .reset r => ResetRequest.shape.toWire r
  | .queryAttributes r => AttributesRequest.shape.toWire r

end Call

/-- What became of a call, and what was logged on the way. -/
structure Reply (α : Type) where
  result : Except ServiceFailure α
  log : List Log.Record := []

/-- A service is what it replies to each call. -/
structure Service where
  start : StartRequest → Reply StartResponse
  getWithWait : GetRequest → Reply GetResponse
  signal : SignalRequest → Reply Unit
  reset : ResetRequest → Reply ResetResponse
  queryAttributes : AttributesRequest → Reply AttributesResponse

namespace Reply

def map {α β : Type} (f : α → β) (r : Reply α) : Reply β := ⟨r.result.map f, r.log⟩

end Reply

/-- The reply to a call, as a value. -/
def Service.reply (s : Service) : Call → Reply Value
  | .start r => (s.start r).map StartResponse.shape.toValue
  | .getWithWait r => (s.getWithWait r).map GetResponse.shape.toValue
  | .signal r => (s.signal r).map fun _ => .none
  | .reset r => (s.reset r).map ResetResponse.shape.toValue
  | .queryAttributes r => (s.queryAttributes r).map AttributesResponse.shape.toValue

end WorkflowClient
