import WorkflowClient.Payload.Codec

/-! How a call can fail: at the client, on the way, or at the service. -/
namespace WorkflowClient

/-- Why the service gave no answer that can be used. -/
inductive ServiceFailure
  /-- The connection failed, for a reason that has a name. -/
  | connection (reason message : String)
  | status (code : Int)
  /-- The connection had been closed before. -/
  | closed
  /-- An integer of the request is too long to be written. -/
  | unwritable
  | bodyNotText
  | bodyNotJson
  | bodyInteger (digits : Nat)
  /-- The answer is not what such a call is answered with. -/
  | invalid (faults : List Validation.Fault)
deriving DecidableEq

/-- Why a call gave no result. -/
inductive Failure
  /-- A value that was given does not fit. -/
  | invalid (faults : List Validation.Fault)
  | diagnostic (d : Diagnostic)
  | encoding (e : Payload.EncodeFailure)
  | decoding (e : Payload.DecodeFailure)
  /-- A check of the application raised something else. -/
  | raised (e : Raised)
  | unknownMode (name : String)
  /-- An integer that a message would show is too long to be written. -/
  | unwritable
  | service (e : ServiceFailure)

namespace ServiceFailure

/-- What is said besides the kind of failure. -/
def message? : ServiceFailure → Option String
  | .connection _ message => some message
  | .closed => some "Cannot send a request, as the client has been closed."
  | .unwritable => some (Number.limitText none)
  | .bodyInteger digits => some (Number.limitText (some digits))
  | .status _ | .bodyNotText | .bodyNotJson | .invalid _ => none

end ServiceFailure

/-- What is said of a name that is no mode. -/
def Failure.unknownModeText (name : String) : String :=
  Text.quoted name ++ " is not a valid ResultMode"

end WorkflowClient
