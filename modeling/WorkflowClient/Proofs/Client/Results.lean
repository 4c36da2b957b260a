import WorkflowClient.Proofs.Client.Absence
import WorkflowClient.Proofs.Client.Endings
import WorkflowClient.Proofs.Message.Requests

/-! The two results of a run: all of its outputs as they are, and the only one decoded. -/
namespace WorkflowClient
open Message
open Diagnostic (tick)

namespace Message

theorem ofText?_injective : Function.Injective ofText? := by
  intro a b h
  cases a <;> cases b <;> cases h <;> rfl

theorem StateOutput.toValue_injective : Function.Injective StateOutput.shape.toValue := by
  rintro ⟨id, payload⟩ ⟨id', payload'⟩ h
  simp only [Shape.toValue, StateOutput.shape, Value.record.injEq, List.cons.injEq, Prod.mk.injEq,
    Value.str.injEq, true_and, and_true] at h
  rw [h.1, ofText?_injective h.2]

end Message

namespace Client
variable {c : Client} {service : Service} {s : Descriptors} {target : Target}
  {workflowId : String} {runId : Option String} {os : List StateOutput}

/-- Outputs as they are handed over together. -/
def outputsValue (os : List StateOutput) : Value :=
  .sequence .list (os.map StateOutput.shape.toValue)

theorem outputsValue_injective : Function.Injective outputsValue := by
  intro os os' h
  rw [outputsValue, outputsValue, Value.sequence.injEq] at h
  exact List.map_injective_iff.mpr StateOutput.toValue_injective h.2

/-- The request for the outputs of a run. -/
def awaiting (workflowId : String) (runId : Option String) : GetRequest :=
  { workflowId, runId, needsResults := true }

theorem getRequest_eq (workflowId : String) (runId : Option String) :
    getRequest (.str workflowId) (ofText? runId) =
      ⟨.ok (awaiting workflowId runId), [],
        [⟨.client, Log.debug, "Waiting for result of workflow " ++ tick workflowId⟩]⟩ := by
  have hchecked : GetRequest.shape.ofMembers
      [("workflow_id", .str workflowId), ("workflow_run_id", ofText? runId),
        ("needs_results", .bool true)] = .ok (awaiting workflowId runId) :=
    GetRequest.ofMembers_eq_ok.mpr ⟨rfl, nullable_text_ofText? runId, rfl⟩
  unfold getRequest
  rw [hchecked]
  rfl

theorem outputs_outcomes (service : Service) (workflowId : String) (runId : Option String) :
    let run := outputs service (.str workflowId) (ofText? runId)
    let request := awaiting workflowId runId
    run.calls = [.getWithWait request] ∧
      (∀ e, (service.getWithWait request).result = .error e → run.result = .error (.service e)) ∧
      ∀ response, (service.getWithWait request).result = .ok response →
        run.result = .ok (response.results.getD []) := by
  intro run request
  have hrun : run = _ := Run.bind_of_ok (getRequest_eq workflowId runId) _
  rw [hrun]
  exact Run.call_bind (.getWithWait request) (service.getWithWait request) fun _ => rfl

/-- Whatever is made of the outputs, it is no further call. -/
theorem calls_result (c : Client) (service : Service) (s : Descriptors) (workflowId : String)
    (runId : Option String) (mode : String) (target : Target) :
    (c.result service s (.str workflowId) (ofText? runId) mode target).1.calls =
      [.getWithWait (awaiting workflowId runId)] := by
  obtain ⟨hcalls, -, -⟩ := outputs_outcomes service workflowId runId
  unfold result
  dsimp only
  split
  · exact hcalls
  · rw [hcalls, calls_shaped, List.append_nil]

theorem result_complex (workflowId runId : Value) :
    (c.result service s workflowId runId "COMPLEX" target).1.result =
      (outputs service workflowId runId).result.map outputsValue := by
  unfold result
  dsimp only
  split
  · rename_i e he
    rw [he]
    rfl
  · rename_i os hos
    rw [hos]
    rfl

/-- The descriptors after a simple result are those after the decoding, if there is one. -/
theorem descriptors_simple {workflowId runId : Value}
    (h : (outputs service workflowId runId).result = .ok os) :
    (c.result service s workflowId runId "SIMPLE" target).2 =
      (c.onlyOutput s workflowId target os).2 := by
  unfold result
  dsimp only
  rw [h]
  rfl

/-- What a simple result comes to if those are all of the outputs, and the descriptors after it. -/
structure Condenses (c : Client) (s : Descriptors) (workflowId : String) (target : Target)
    (os : List StateOutput) (result : Except Failure Value) (after : Descriptors) : Prop where
  empty : os = [] → result = .ok .none
  many : 2 ≤ os.length → Reports result (.multipleCompletions workflowId os.length)
  missing (id : String) : os = [⟨id, none⟩] → Reports result (.missingOutput workflowId id)
  decoded (id payload : String) : os = [⟨id, some payload⟩] →
    let decoding := Payload.decode c.catalog s (some payload) target
    result = decoding.1.result.mapError .decoding ∧ after = decoding.2

theorem condenses_onlyOutput (c : Client) (s : Descriptors) (workflowId : String)
    (target : Target) (os : List StateOutput) :
    let answer := c.onlyOutput s (.str workflowId) target os
    c.Condenses s workflowId target os answer.1.result answer.2 where
  empty h := by
    subst h
    rfl
  many h := by
    match os with
    | [_] => exact absurd h (by simp)
    | _ :: _ :: _ => exact ⟨_, rfl, Diagnostic.shows_multipleCompletions ..⟩
  missing id h := by
    subst h
    exact ⟨_, rfl, Diagnostic.shows_missingOutput workflowId id⟩
  decoded id payload h := by
    subst h
    exact ⟨rfl, rfl⟩

/-- The simple result of a run is a function of the complex one. Both are asked for in the same way,
and both end with the service if it fails; otherwise the complex result is all the outputs, and
nothing else decides what the simple one comes to. -/
theorem simple_of_complex (c : Client) (service : Service) (s s' : Descriptors)
    (workflowId : String) (runId : Option String) (target target' : Target) :
    let simple := c.result service s (.str workflowId) (ofText? runId) "SIMPLE" target
    let complex := c.result service s' (.str workflowId) (ofText? runId) "COMPLEX" target'
    let request := awaiting workflowId runId
    simple.1.calls = [.getWithWait request] ∧ complex.1.calls = [.getWithWait request] ∧
    (∀ e, (service.getWithWait request).result = .error e →
      simple.1.result = .error (.service e) ∧ complex.1.result = .error (.service e)) ∧
    (∀ response, (service.getWithWait request).result = .ok response →
      complex.1.result = .ok (outputsValue (response.results.getD []))) ∧
    ∀ os, complex.1.result = .ok (outputsValue os) →
      c.Condenses s workflowId target os simple.1.result simple.2 := by
  intro simple complex request
  obtain ⟨-, herror, hok⟩ := outputs_outcomes service workflowId runId
  have hsimple : simple.1.result = _ := result_simple
  have hcomplex : complex.1.result = _ := result_complex ..
  refine ⟨calls_result .., calls_result .., fun e he => ⟨?_, ?_⟩, fun response hresponse => ?_,
    fun os hos => ?_⟩
  · rw [hsimple, herror e he]
    rfl
  · rw [hcomplex, herror e he]
    rfl
  · rw [hcomplex, hok response hresponse]
    rfl
  · have houtputs : (outputs service (.str workflowId) (ofText? runId)).result = .ok os := by
      rw [hcomplex] at hos
      cases h : (outputs service (.str workflowId) (ofText? runId)).result with
      | error e =>
        rw [h] at hos
        cases hos
      | ok os' =>
        rw [h] at hos
        rw [outputsValue_injective (Except.ok.inj hos)]
    rw [hsimple, houtputs, descriptors_simple houtputs]
    exact condenses_onlyOutput c s workflowId target os

theorem simple_of_complex_blank :
    (counter.result blank {} (.str "order-1") (ofText? none) "COMPLEX" (.type .any)).1.result =
        .ok (outputsValue [⟨"ship", some ""⟩]) ∧
      (counter.result blank {} (.str "order-1") (ofText? none) "SIMPLE"
        (.descriptor totals)).1.result = .ok .none := by
  have hcomplex : (counter.result blank {} (.str "order-1") (ofText? none) "COMPLEX"
      (.type .any)).1.result = .ok (outputsValue [⟨"ship", some ""⟩]) := rfl
  have h := simple_of_complex counter blank {} {} "order-1" none (.descriptor totals) (.type .any)
  exact ⟨hcomplex, ((h.2.2.2.2 _ hcomplex).decoded "ship" "" rfl).1⟩

end Client
end WorkflowClient
