import WorkflowClient.Client.Operations

/-! Every operation as what comes before its one call, the call, and what is made of the answer. -/
namespace WorkflowClient
open Message

/-- What a call is answered with. -/
def Call.Answer : Call → Type
  | .start _ => StartResponse
  | .getWithWait _ => GetResponse
  | .signal _ => Unit
  | .reset _ => ResetResponse
  | .queryAttributes _ => AttributesResponse

def Service.answer (service : Service) : (call : Call) → Reply call.Answer
  | .start r => service.start r
  | .getWithWait r => service.getWithWait r
  | .signal r => service.signal r
  | .reset r => service.reset r
  | .queryAttributes r => service.queryAttributes r

/-- A call that is about to be made, and what is done with its answer. -/
structure Pending (α : Type) where
  call : Call
  next : call.Answer → α

namespace Run
variable {α β γ : Type}

theorem andThen_pure (r : Run α) : r.andThen pure = r := by
  obtain ⟨_ | a, calls, log⟩ := r
  · rfl
  · simp [andThen, pure]

theorem pure_andThen (a : α) (f : α → Run β) : (pure a : Run α).andThen f = f a := by
  simp [andThen, pure]

theorem andThen_assoc (r : Run α) (f : α → Run β) (g : β → Run γ) :
    (r.andThen f).andThen g = r.andThen fun a => (f a).andThen g := by
  obtain ⟨_ | a, calls, log⟩ := r
  · rfl
  · cases h : (f a).result <;> simp [andThen, h]

instance : LawfulMonad Run :=
  LawfulMonad.mk' Run andThen_pure pure_andThen andThen_assoc

theorem map_eq (f : α → β) (r : Run α) : r.map f = f <$> r := by
  rw [map_eq_pure_bind]
  obtain ⟨_ | a, calls, log⟩ := r
  · rfl
  · simp [map, bind, andThen, pure, Except.map]

@[simp] theorem calls_pure (a : α) : (pure a : Run α).calls = [] := rfl

@[simp] theorem calls_fail (e : Failure) : (fail e : Run α).calls = [] := rfl

@[simp] theorem calls_write (level : Int) (m : String) : (write level m).calls = [] := rfl

@[simp] theorem calls_reject (d : Diagnostic) : (reject d : Run α).calls = [] := rfl

@[simp] theorem calls_checked (r : Validation.Checked α) : (checked r).calls = [] := rfl

@[simp] theorem calls_encode (Γ : Catalog) (v : Value) : (encode Γ v).calls = [] := rfl

@[simp] theorem calls_decoded (d : Payload.Decoded) : (decoded d).calls = [] := rfl

@[simp] theorem calls_shown (v : Value) : (shown v).calls = [] := by
  unfold shown
  split <;> rfl

theorem calls_bind_eq_nil {r : Run α} {f : α → Run β} (hr : r.calls = [])
    (hf : ∀ a, (f a).calls = []) : (r >>= f).calls = [] := by
  obtain ⟨_ | a, calls, log⟩ := r
  · exact hr
  · simpa [bind, andThen, hf a] using hr

theorem calls_map (f : α → β) (r : Run α) : (r.map f).calls = r.calls := rfl

theorem result_bind_eq_ok {r : Run α} {f : α → Run β} {b : β} :
    (r >>= f).result = .ok b ↔ ∃ a, r.result = .ok a ∧ (f a).result = .ok b := by
  obtain ⟨_ | a, calls, log⟩ := r <;> simp [bind, andThen]

theorem result_bind_pure {r : Run α} {f : α → β} {b : β}
    (h : (do let a ← r; pure (f a) : Run β).result = .ok b) :
    ∃ a, r.result = .ok a ∧ f a = b := by
  obtain ⟨a, ha, hb⟩ := result_bind_eq_ok.mp h
  exact ⟨a, ha, Except.ok.inj hb⟩

theorem result_checked_eq_ok {r : Validation.Checked α} {a : α} :
    (checked r).result = .ok a ↔ r = .ok a := by
  cases r with
  | error e => constructor <;> exact fun h => by cases h
  | ok b =>
    change Except.ok b = .ok a ↔ _
    simp

theorem call_of_error {call : Call} {reply : Reply α} {e : ServiceFailure}
    (h : reply.result = .error e) :
    Run.call call reply = ⟨.error (.service e), [call], reply.log⟩ := by
  rw [Run.call, h]
  rfl

theorem call_of_ok {call : Call} {reply : Reply α} {a : α} (h : reply.result = .ok a) :
    Run.call call reply = ⟨.ok a, [call], reply.log⟩ := by
  rw [Run.call, h]
  rfl

end Run

namespace Client
variable (c : Client) (s : Descriptors)

/-- An operation up to its call. -/
def plan : Operation → Run (Pending (Run Value × Descriptors))
  | .start type state workflowId options input => do
    let request ← c.startRequest type state workflowId options input
    pure ⟨.start request, fun r => ((namedRun "start" r.runId).map .str, s)⟩
  | .result workflowId runId mode target => do
    let request ← getRequest workflowId runId
    pure ⟨.getWithWait request, fun r => c.shaped s workflowId mode target (r.results.getD [])⟩
  | .signal type workflowId runId channel value => do
    let request ← c.signalRequest type workflowId runId channel value
    pure ⟨.signal request, fun _ => (pure .none, s)⟩
  | .reset workflowId runId point reason skip => do
    let request ← resetRequest workflowId runId point reason skip
    pure ⟨.reset request, fun r => ((namedRun "reset" r.runId).map .str, s)⟩
  | .query type workflowId runId keys => do
    let request ← c.attributesRequest type workflowId runId keys
    pure ⟨.queryAttributes request.2, fun r =>
      ((c.attributesOf request.1 r).map attributesValue, s)⟩

end Client

namespace Run
variable {α : Type}

/-- Makes the call that a run ends in, and goes on with the answer. -/
def carryOut (service : Service) (s : Descriptors)
    (r : Run (Pending (Run α × Descriptors))) : Run α × Descriptors :=
  match r.result with
  | .error e => (⟨.error e, r.calls, r.log⟩, s)
  | .ok p =>
    let reply := service.answer p.call
    match reply.result with
    | .error e => (⟨.error (.service e), r.calls ++ [p.call], r.log ++ reply.log⟩, s)
    | .ok answer =>
      let (last, s) := p.next answer
      (⟨last.result, r.calls ++ p.call :: last.calls, r.log ++ reply.log ++ last.log⟩, s)

theorem carryOut_exchange {ρ : Type} (service : Service) (s : Descriptors) (r : Run ρ)
    (call : ρ → Call) (last : (q : ρ) → (call q).Answer → Run α) :
    carryOut service s (do let q ← r; pure ⟨call q, fun a => (last q a, s)⟩) =
      (do let q ← r; let a ← Run.call (call q) (service.answer (call q)); last q a, s) := by
  obtain ⟨_ | q, calls, log⟩ := r
  · rfl
  · cases h : (service.answer (call q)).result with
    | error e => simp [carryOut, call_of_error h, bind, andThen, pure, h]
    | ok a => simp [carryOut, call_of_ok h, bind, andThen, pure, h]

end Run

namespace Client
variable (c : Client) (service : Service) (s : Descriptors)

theorem perform_eq_carryOut (o : Operation) :
    c.perform service s o = (c.plan s o).carryOut service s := by
  cases o with
  | start type state workflowId options input =>
    simp only [perform, start, plan, Run.map_eq, map_bind]
    exact (Run.carryOut_exchange service s _ Call.start _).symm
  | result workflowId runId mode target =>
    simp only [perform, result, outputs, plan]
    obtain ⟨_ | request, calls, log⟩ := getRequest workflowId runId
    · rfl
    · cases h : (service.getWithWait request).result with
      | error e =>
        simp [Run.carryOut, Service.answer, Run.call_of_error h, bind, Run.andThen, pure, h]
      | ok a => simp [Run.carryOut, Service.answer, Run.call_of_ok h, bind, Run.andThen, pure, h]
  | signal type workflowId runId channel value =>
    simp only [perform, signal, plan, Run.map_eq, map_eq_pure_bind, bind_assoc]
    exact (Run.carryOut_exchange service s _ Call.signal fun _ _ => pure Value.none).symm
  | reset workflowId runId point reason skip =>
    simp only [perform, reset, plan, Run.map_eq, map_bind]
    exact (Run.carryOut_exchange service s _ Call.reset _).symm
  | query type workflowId runId keys =>
    simp only [perform, query, plan, Run.map_eq, map_bind]
    exact (Run.carryOut_exchange service s (c.attributesRequest type workflowId runId keys)
      (fun q => Call.queryAttributes q.2) _).symm

end Client
end WorkflowClient
