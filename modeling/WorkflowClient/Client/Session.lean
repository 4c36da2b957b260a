import WorkflowClient.Client.Operations
import WorkflowClient.Http

/-! A client with its connection to the service over HTTP. -/
namespace WorkflowClient

/-- A client closes only a service that it made itself. -/
structure Session where
  client : Client
  connection : Http.Connection
  owned : Bool := true

namespace Session

/-- A client with a service of its own, at the address and with the timeout of its options. -/
def own (c : Client) : Session :=
  { client := c
    connection := .own c.options.serverUrl (Options.ofFloat? c.options.requestTimeout) }

/-- A client on a service that was handed in. -/
def shared (c : Client) (h : Http.Connection) : Session := ⟨c, h, false⟩

def close (s : Session) : Session :=
  if s.owned then { s with connection := s.connection.close } else s

def perform (s : Session) (d : Http.Delivery) (ds : Descriptors) (o : Operation) :
    Run Value × Descriptors :=
  s.client.perform (Http.service s.connection d) ds o

/-- The session after a run, whose calls went out over its connection one after the other. -/
def carried {α : Type} (s : Session) (d : Http.Delivery) (r : Run α) : Session :=
  { s with connection := r.calls.foldl (fun h c => (Http.exchange h d c).2) s.connection }

/-- The requests that go out for a run. -/
def sent (s : Session) {α : Type} (r : Run α) : List Http.Sent :=
  r.calls.flatMap (Http.sent s.connection)

end Session
end WorkflowClient
