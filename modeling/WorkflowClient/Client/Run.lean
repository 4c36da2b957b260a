import WorkflowClient.Service

/-! What a client does in one operation: how it ends, the calls that it makes, and what it logs. -/
namespace WorkflowClient

structure Run (α : Type) where
  result : Except Failure α
  calls : List Call := []
  log : List Log.Record := []

namespace Run
variable {α β : Type}

/-- What is done next starts from the result, and does not happen after a failure. -/
def andThen (r : Run α) (next : α → Run β) : Run β :=
  match r.result with
  | .error e => ⟨.error e, r.calls, r.log⟩
  | .ok a => ⟨(next a).result, r.calls ++ (next a).calls, r.log ++ (next a).log⟩

instance : Monad Run where
  pure a := ⟨.ok a, [], []⟩
  bind := andThen

def fail (e : Failure) : Run α := ⟨.error e, [], []⟩

def write (level : Int) (message : String) : Run Unit := ⟨.ok (), [], [⟨.client, level, message⟩]⟩

def debug (message : String) : Run Unit := write Log.debug message

def warning (message : String) : Run Unit := write Log.warning message

/-- A call that does not fit what was declared is logged and not made. -/
def reject (d : Diagnostic) : Run α := do
  warning ("Rejected call before RPC: " ++ d.message)
  fail (.diagnostic d)

def checked (r : Validation.Checked α) : Run α := ⟨r.mapError Failure.invalid, [], []⟩

def encode (Γ : Catalog) (v : Value) : Run (Option String) :=
  ⟨(Payload.encode Γ v).mapError Failure.encoding, [], []⟩

def decoded (d : Payload.Decoded) : Run Value := ⟨d.result.mapError Failure.decoding, [], d.log⟩

/-- A value as a message shows it. -/
def shown (v : Value) : Run String :=
  match v.shown? with
  | some s => pure s
  | none => fail .unwritable

/-- The one call of an operation. -/
def call (c : Call) (reply : Reply α) : Run α :=
  ⟨reply.result.mapError Failure.service, [c], reply.log⟩

end Run
end WorkflowClient
