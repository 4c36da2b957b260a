import WorkflowClient.Json.Basic
import WorkflowClient.Service
import WorkflowClient.Text.Quoted
import WorkflowClient.Text.Unicode

/-! Addresses as requests show them. -/
namespace WorkflowClient.Http.Address

/-- The address without the slashes at its end. -/
def trimmed (url : String) : String :=
  String.ofList (url.toList.reverse.dropWhile (· = '/')).reverse

/-- The schemes with their usual ports. -/
def schemes : List (String × String) := [("http://", ":80"), ("https://", ":443")]

/-- The host in small letters, without the usual port of the scheme. -/
def host (port : String) (cs : List Char) : List Char :=
  let cs := cs.map Char.toLower
  if port.toList.isSuffixOf cs then cs.take (cs.length - port.length) else cs

/-- Characters that stand for themselves in a path. -/
def isPathChar (c : Char) : Bool :=
  0x20 < c.toNat && c.toNat < 0x7F &&
    c ∉ ['"', '#', '<', '>', '?', '\x60', '\x7b', '\x7d', '%']

def percent (b : UInt8) : List Char := '%' :: (Text.hex 2 b.toNat).map Char.toUpper

def isHexDigit (c : Char) : Bool := c.isDigit || ('a' ≤ c.toLower && c.toLower ≤ 'f')

/-- A path whose other characters are written as the octets that they have in UTF-8. -/
def path : List Char → List Char
  | [] => []
  | c :: rest =>
    let octet := (rest.take 2).length = 2 && (rest.take 2).all isHexDigit
    let kept := isPathChar c || (c = '%' && octet)
    if kept then c :: path rest else (Text.utf8Octets c).flatMap percent ++ path rest

/-- An address in its usual form. -/
def usual (url : String) : List Char :=
  match schemes.find? fun s => url.startsWith s.1 with
  | none => url.toList
  | some (scheme, port) =>
    let rest := url.toList.drop scheme.length
    scheme.toList ++ host port (rest.takeWhile (· ≠ '/')) ++ path (rest.dropWhile (· ≠ '/'))

/-- A path below an address; they meet in one slash. -/
def joined (url below : String) : String :=
  let cs := usual url
  String.ofList (if cs.getLast? = some '/' then cs.dropLast else cs) ++ below

end WorkflowClient.Http.Address

/-! The service over HTTP: every call is one POST of its body to the path of its operation. -/
namespace WorkflowClient.Http
open Message

/-- What the network does with a request. -/
inductive Delivery
  | failed (reason message : String)
  | response (status : Int) (body : List UInt8)
deriving DecidableEq

/-- A request as it went out. -/
structure Sent where
  method : String := "POST"
  url : String
  contentType : String := "application/json"
  body : String
deriving DecidableEq

/-- How far a connection has come. The first request that goes out opens it. -/
inductive Phase
  | unopened
  | opened
  | closed
deriving DecidableEq

/-- The service behind a connection to an address. A connection that is handed in is not the
service's own, and stays open. -/
structure Connection where
  baseUrl : String
  /-- Where the connection goes. -/
  address : String
  timeout : Value := .none
  owned : Bool := true
  phase : Phase := .unopened

namespace Connection

def closed (h : Connection) : Bool := h.phase = .closed

/-- The service with a connection of its own. -/
def own (url : String) (timeout : Value) : Connection :=
  { baseUrl := Address.trimmed url, address := Address.trimmed url, timeout }

/-- The service over a connection that was handed in, and that goes where it goes. -/
def shared (url : String) : Connection :=
  { baseUrl := Address.trimmed url, address := url, owned := false }

def close (h : Connection) : Connection := if h.owned then { h with phase := .closed } else h

end Connection

/-- The path of an operation. -/
def path : Call → String
  | .start _ => "/api/v1/workflow/start"
  | .getWithWait _ => "/api/v1/workflow/getWithWait"
  | .signal _ => "/api/v1/workflow/signal"
  | .reset _ => "/api/v1/workflow/reset"
  | .queryAttributes _ => "/api/v1/workflow/queryattributes/get"

/-- What goes out for a call: one request, if its body can be written and the connection is
open. -/
def sent (h : Connection) (c : Call) : List Sent :=
  match c.wire.print? Json.compact with
  | none => []
  | some body => if h.closed then [] else [{ url := Address.joined h.address (path c), body }]

/-- The answer to a delivered request: any status but one of success is a failure, whatever the
body. -/
def accepted : Delivery → Except ServiceFailure (List UInt8)
  | .failed reason message => .error (.connection reason message)
  | .response status body =>
    if 200 ≤ status ∧ status < 300 then .ok body else .error (.status status)

/-- The body that comes back for a call, and the connection after it. -/
def exchange (h : Connection) (d : Delivery) (c : Call) :
    Except ServiceFailure (List UInt8) × Connection :=
  match c.wire.print? Json.compact with
  | none => (.error .unwritable, h)
  | some _ => if h.closed then (.error .closed, h) else (accepted d, { h with phase := .opened })

/-- The data of a body. An empty one stands for an object without members. -/
def data (body : List UInt8) : Except ServiceFailure Json :=
  if body.isEmpty then .ok (.object [])
  else match Text.document? body with
    | none => .error .bodyNotText
    | some text => match Json.read none text with
      | .ok j => .ok j.settle
      | .error (.integerTooLong digits) => .error (.bodyInteger digits)
      | .error _ => .error .bodyNotJson

/-- The answer that a body holds. -/
def received {α : Type} (S : Shape α) (body : List UInt8) : Except ServiceFailure α :=
  match data body with
  | .error e => .error e
  | .ok j => (S.ofValue (.ofJson j)).mapError .invalid

def log (c : Call) : List Log.Record := [⟨.transport, Log.debug, "POST " ++ path c⟩]

def replyWith {α : Type} (S : Shape α) (h : Connection) (d : Delivery) (c : Call) : Reply α :=
  ⟨(exchange h d c).1.bind (received S), log c⟩

/-- The service behind a connection whose network does the same with every request. Nothing is read
of the answer to a signal. -/
def service (h : Connection) (d : Delivery) : Service where
  start r := replyWith StartResponse.shape h d (.start r)
  getWithWait r := replyWith GetResponse.shape h d (.getWithWait r)
  signal r := ⟨(exchange h d (.signal r)).1.map fun _ => (), log (.signal r)⟩
  reset r := replyWith ResetResponse.shape h d (.reset r)
  queryAttributes r := replyWith AttributesResponse.shape h d (.queryAttributes r)

end WorkflowClient.Http
