import WorkflowClient.Proofs.Client.Calls
import WorkflowClient.Proofs.Diagnostic.Causes
import WorkflowClient.Proofs.Payload.Failures

/-! The ways in which an operation ends: before its call, or by what the call is answered with. -/
namespace WorkflowClient
open Diagnostic (View)

/-- The result is an error of the client, and callers see that of it. -/
def Reports {α : Type} (result : Except Failure α) (v : View) : Prop :=
  ∃ d : Diagnostic, result = .error (.diagnostic d) ∧ d.Shows v

namespace Run
variable {α β : Type}

/-- An operation that does not fit what was declared: one error, one warning, no call. -/
structure Refused (r : Run α) (v : View) : Prop where
  result : Reports r.result v
  calls : r.calls = []
  log : r.log = [⟨.client, Log.warning, "Rejected call before RPC: " ++ v.text⟩]

/-- An operation on a value that has no payload. -/
structure Unencoded (Γ : Catalog) (r : Run α) (v : Value) (e : Payload.EncodeFailure) :
    Prop where
  result : r.result = .error (.encoding e)
  calls : r.calls = []
  cause : e.Explains Γ v

/-- The result of a call that is answered with the name of a run. -/
structure Names (operation : String) (answer : Except ServiceFailure (Option String))
    (result : Except Failure String) : Prop where
  failed (e : ServiceFailure) : answer = .error e → result = .error (.service e)
  nameless : answer = .ok none → Reports result (.malformedResponse operation "workflowRunId")
  named (runId : String) : answer = .ok (some runId) → result = .ok runId

theorem refused_reject {d : Diagnostic} {v : View} (h : d.Shows v) :
    (reject d : Run α).Refused v where
  result := ⟨d, rfl, h⟩
  calls := rfl
  log := by
    rw [← h.message]
    rfl

/-- After a run that made no call, what is done next makes all of them. -/
theorem bind_of_ok {r : Run α} {a : α} {log : List Log.Record} (h : r = ⟨.ok a, [], log⟩)
    (f : α → Run β) : (r >>= f) = ⟨(f a).result, (f a).calls, log ++ (f a).log⟩ := by
  subst h
  rfl

theorem bind_of_error {r : Run α} {e : Failure} {log : List Log.Record}
    (h : r = ⟨.error e, [], log⟩) (f : α → Run β) : (r >>= f) = ⟨.error e, [], log⟩ := by
  subst h
  rfl

theorem result_bind (r : Run α) (f : α → Run β) :
    (r >>= f).result = r.result.bind fun a => (f a).result := by
  obtain ⟨_ | a, calls, log⟩ := r <;> rfl

/-- A failed call is the end; an answer is what the rest is made of. -/
theorem call_bind (call : Call) (reply : Reply α) {f : α → Run β} (hf : ∀ a, (f a).calls = []) :
    let run := Run.call call reply >>= f
    run.calls = [call] ∧
      (∀ e, reply.result = .error e → run.result = .error (.service e)) ∧
      ∀ a, reply.result = .ok a → run.result = (f a).result := by
  intro run
  cases hr : reply.result with
  | error e =>
    have hrun : run = ⟨.error (.service e), [call], reply.log⟩ := by
      simp only [run, call_of_error hr]
      rfl
    rw [hrun]
    refine ⟨rfl, ?_, ?_⟩
    · rintro _ ⟨⟩
      rfl
    · rintro _ ⟨⟩
  | ok a =>
    have hrun : run = ⟨(f a).result, [call], reply.log ++ (f a).log⟩ := by
      simp only [run, call_of_ok hr, bind, andThen, hf, List.append_nil]
    rw [hrun]
    refine ⟨rfl, ?_, ?_⟩
    · rintro _ ⟨⟩
    · rintro _ ⟨⟩
      rfl

/-- A call whose answer is looked through for the name of a run. -/
theorem call_namedRun (operation : String) (call : Call) (reply : Reply α)
    (runId? : α → Option String) :
    let run : Run String := Run.call call reply >>= fun a => Client.namedRun operation (runId? a)
    run.calls = [call] ∧ Names operation (reply.result.map runId?) run.result := by
  intro run
  obtain ⟨hcalls, herror, hok⟩ := call_bind call reply fun a =>
    Client.calls_namedRun operation (runId? a)
  refine ⟨hcalls, ?_⟩
  cases hr : reply.result with
  | error e =>
    refine ⟨?_, ?_, ?_⟩
    · rintro _ ⟨⟩
      exact herror e hr
    · rintro ⟨⟩
    · rintro _ ⟨⟩
  | ok a =>
    refine ⟨?_, fun hnone => ?_, fun runId hsome => ?_⟩
    · rintro _ ⟨⟩
    · refine ⟨_, (hok a hr).trans ?_, Diagnostic.shows_malformedResponse operation _⟩
      rw [Except.ok.inj hnone]
      rfl
    · refine (hok a hr).trans ?_
      rw [Except.ok.inj hsome]
      rfl

end Run
end WorkflowClient
