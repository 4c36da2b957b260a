import WorkflowClient.Proofs.Client.Plan

/-! How many calls an operation makes, and which of them its arguments make pointless. -/
namespace WorkflowClient
open Message

namespace Client
variable {c : Client} {s : Descriptors} {o : Operation}

theorem calls_startRequest (type state : String) (workflowId : Value)
    (options : Option StartOptions) (input : Value) :
    (c.startRequest type state workflowId options input).calls = [] := by
  unfold startRequest
  dsimp only
  split
  · refine Run.calls_bind_eq_nil rfl fun _ => Run.calls_bind_eq_nil rfl fun _ => ?_
    exact Run.calls_bind_eq_nil (Run.calls_shown _) fun _ => Run.calls_bind_eq_nil rfl fun _ => rfl
  · rfl

theorem calls_getRequest (workflowId runId : Value) : (getRequest workflowId runId).calls = [] := by
  unfold getRequest
  exact Run.calls_bind_eq_nil (Run.calls_shown _) fun _ => Run.calls_bind_eq_nil rfl fun _ => rfl

theorem calls_signalRequest (type : String) (workflowId runId : Value) (channel : String)
    (value : Value) : (c.signalRequest type workflowId runId channel value).calls = [] := by
  unfold signalRequest
  split
  · rfl
  · split
    · rfl
    · split
      · rfl
      · rfl
      · refine Run.calls_bind_eq_nil (Run.calls_shown _) fun _ => ?_
        exact Run.calls_bind_eq_nil rfl fun _ => Run.calls_bind_eq_nil rfl fun _ => rfl

theorem calls_resetRequest (workflowId runId point reason skip : Value) :
    (resetRequest workflowId runId point reason skip).calls = [] := by
  unfold resetRequest
  refine Run.calls_bind_eq_nil rfl fun _ => Run.calls_bind_eq_nil rfl fun _ => ?_
  exact Run.calls_bind_eq_nil (Run.calls_shown _) fun _ => Run.calls_bind_eq_nil rfl fun _ => rfl

theorem calls_attributesRequest (type : String) (workflowId runId : Value) (keys : Option Keys) :
    (c.attributesRequest type workflowId runId keys).calls = [] := by
  unfold attributesRequest
  split
  · rfl
  · dsimp only
    split
    · refine Run.calls_bind_eq_nil (Run.calls_shown _) fun _ => ?_
      exact Run.calls_bind_eq_nil rfl fun _ => Run.calls_bind_eq_nil rfl fun _ => rfl
    · rfl

theorem calls_namedRun (operation : String) (runId : Option String) :
    (namedRun operation runId).calls = [] := by
  cases runId <;> rfl

theorem calls_shaped (workflowId : Value) (mode : String) (target : Target)
    (os : List StateOutput) : (c.shaped s workflowId mode target os).1.calls = [] := by
  unfold shaped
  split
  · rfl
  · rfl
  · unfold onlyOutput
    split
    · rfl
    · split <;> rfl
    · rfl

theorem calls_decodeAttributes (t : WorkflowType) (found : List (String × Value))
    (kvs : List KeyValue) : (c.decodeAttributes t found kvs).calls = [] := by
  induction kvs generalizing found with
  | nil => rfl
  | cons kv rest ih =>
    unfold decodeAttributes
    split
    · exact ih found
    · refine Run.calls_bind_eq_nil ?_ fun _ => Run.calls_bind_eq_nil rfl fun _ => ih _
      unfold attributeType
      split <;> rfl

theorem calls_attributesOf (t : WorkflowType) (response : AttributesResponse) :
    (c.attributesOf t response).calls = [] := by
  unfold attributesOf
  split
  · rfl
  · exact calls_decodeAttributes ..

theorem calls_plan (c : Client) (s : Descriptors) (o : Operation) : (c.plan s o).calls = [] := by
  cases o with
  | start => exact Run.calls_bind_eq_nil (calls_startRequest ..) fun _ => rfl
  | result => exact Run.calls_bind_eq_nil (calls_getRequest ..) fun _ => rfl
  | signal => exact Run.calls_bind_eq_nil (calls_signalRequest ..) fun _ => rfl
  | reset => exact Run.calls_bind_eq_nil (calls_resetRequest ..) fun _ => rfl
  | query => exact Run.calls_bind_eq_nil (calls_attributesRequest ..) fun _ => rfl

theorem calls_next {p : Pending (Run Value × Descriptors)} (h : (c.plan s o).result = .ok p)
    (a : p.call.Answer) : (p.next a).1.calls = [] := by
  cases o with
  | start =>
    obtain ⟨_, -, rfl⟩ := Run.result_bind_pure h
    exact calls_namedRun ..
  | result =>
    obtain ⟨_, -, rfl⟩ := Run.result_bind_pure h
    exact calls_shaped ..
  | signal =>
    obtain ⟨_, -, rfl⟩ := Run.result_bind_pure h
    rfl
  | reset =>
    obtain ⟨_, -, rfl⟩ := Run.result_bind_pure h
    exact calls_namedRun ..
  | query =>
    obtain ⟨_, -, rfl⟩ := Run.result_bind_pure h
    rw [Run.calls_map]
    exact calls_attributesOf ..

/-- The calls of an operation do not depend on the service. -/
theorem calls_perform (c : Client) (service : Service) (s : Descriptors) (o : Operation) :
    (c.perform service s o).1.calls = match (c.plan s o).result with
      | .error _ => []
      | .ok p => [p.call] := by
  rw [perform_eq_carryOut]
  unfold Run.carryOut
  cases hp : (c.plan s o).result with
  | error e => exact calls_plan c s o
  | ok p =>
    dsimp only
    cases (service.answer p.call).result with
    | error e => simp [calls_plan]
    | ok a => simp [calls_plan, calls_next hp a]

/-- No behaviour of the service lets the operation succeed. -/
def Doomed (c : Client) (s : Descriptors) (o : Operation) : Prop :=
  ∀ service v, (c.perform service s o).1.result ≠ .ok v

/-- The service that has a good answer for every call. -/
def obliging : Service where
  start _ := ⟨.ok ⟨some ""⟩, []⟩
  getWithWait _ := ⟨.ok {}, []⟩
  signal _ := ⟨.ok (), []⟩
  reset _ := ⟨.ok ⟨some ""⟩, []⟩
  queryAttributes _ := ⟨.ok { attributes := some [] }, []⟩

end Client

/-- The outputs of a run are asked for, with identifiers that fit, in a mode that does not exist. -/
def Operation.AsksUnknownMode (o : Operation) : Prop :=
  ∃ workflowId runId mode target request, o = .result workflowId runId mode target ∧
    ResultMode.ofName? mode = none ∧ (Client.getRequest workflowId runId).result = .ok request

namespace Client
variable {c : Client} {s : Descriptors} {o : Operation}

theorem doomed_of_plan_error {e : Failure} (h : (c.plan s o).result = .error e) :
    c.Doomed s o := by
  intro service v
  rw [perform_eq_carryOut]
  simp [Run.carryOut, h]

theorem doomed_of_asksUnknownMode (h : o.AsksUnknownMode) : c.Doomed s o := by
  obtain ⟨workflowId, runId, mode, target, request, rfl, hm, hr⟩ := h
  intro service v
  have hp : ∃ q, (c.plan s (.result workflowId runId mode target)).result = .ok q ∧
      q = ⟨.getWithWait request,
        fun r => c.shaped s workflowId mode target (r.results.getD [])⟩ := by
    simp [plan, bind, Run.andThen, hr, pure]
  obtain ⟨q, hq, rfl⟩ := hp
  rw [perform_eq_carryOut]
  unfold Run.carryOut
  rw [hq]
  dsimp only
  cases (service.answer (.getWithWait request)).result <;> simp [shaped, hm, Run.fail]

/-- Without such a mode an obliging service lets every operation succeed that reaches its call. -/
theorem succeeds_of_plan_ok {p : Pending (Run Value × Descriptors)}
    (h : (c.plan s o).result = .ok p) (hm : ¬ o.AsksUnknownMode) :
    ∃ v, (c.perform obliging s o).1.result = .ok v := by
  rw [perform_eq_carryOut]
  unfold Run.carryOut
  rw [h]
  cases o with
  | start =>
    obtain ⟨_, -, rfl⟩ := Run.result_bind_pure h
    exact ⟨_, rfl⟩
  | result workflowId runId mode target =>
    obtain ⟨request, hr, rfl⟩ := Run.result_bind_pure h
    cases hmode : ResultMode.ofName? mode with
    | none => exact (hm ⟨_, _, _, _, _, rfl, hmode, hr⟩).elim
    | some m =>
      cases m <;> simp [Service.answer, obliging, shaped, hmode, onlyOutput, pure]
  | signal =>
    obtain ⟨_, -, rfl⟩ := Run.result_bind_pure h
    exact ⟨_, rfl⟩
  | reset =>
    obtain ⟨_, -, rfl⟩ := Run.result_bind_pure h
    exact ⟨_, rfl⟩
  | query =>
    obtain ⟨_, -, rfl⟩ := Run.result_bind_pure h
    exact ⟨_, rfl⟩

/-- An operation that its arguments doom makes no call, unless it asks for outputs in a mode that
does not exist; that one makes its call and is doomed all the same. No operation makes two. -/
theorem calls_of_doomed (c : Client) (s : Descriptors) (o : Operation) :
    (∀ service, (c.perform service s o).1.calls.length ≤ 1) ∧
      (o.AsksUnknownMode → c.Doomed s o) ∧
      (c.Doomed s o → ∀ service,
        ((c.perform service s o).1.calls = [] ↔ ¬ o.AsksUnknownMode)) := by
  refine ⟨fun service => ?_, doomed_of_asksUnknownMode, fun hd service => ?_⟩
  · rw [calls_perform]
    split <;> simp
  · rw [calls_perform]
    cases hp : (c.plan s o).result with
    | error e =>
      refine iff_of_true rfl ?_
      rintro ⟨workflowId, runId, mode, target, request, rfl, -, hr⟩
      simp [plan, bind, Run.andThen, hr, pure] at hp
    | ok p =>
      refine iff_of_false (by simp) fun hm => ?_
      obtain ⟨v, hv⟩ := succeeds_of_plan_ok hp hm
      exact hd obliging v hv

/-- A client that knows no workflow type. -/
def bare : Client := { catalog := .empty, registry := ⟨[], List.nodup_nil⟩ }

theorem calls_of_doomed_bare :
    bare.Doomed {} (.start "Order" "validate" (.str "order-1") none .none) ∧
      ∀ service, (bare.perform service {}
        (.start "Order" "validate" (.str "order-1") none .none)).1.calls = [] := by
  have hd : bare.Doomed {} (.start "Order" "validate" (.str "order-1") none .none) :=
    doomed_of_plan_error rfl
  refine ⟨hd, fun service => ((calls_of_doomed _ _ _).2.2 hd service).mpr ?_⟩
  rintro ⟨_, _, _, _, _, h, -⟩
  cases h

/-- A mode that does not exist dooms the operation, and the call is made before it is looked at. -/
theorem doomed_result_makes_call :
    bare.Doomed {} (.result (.str "order-1") .none "simple" (.type .any)) ∧
      (bare.perform obliging {} (.result (.str "order-1") .none "simple" (.type .any))).1.calls =
        [.getWithWait ⟨"order-1", none, true⟩] :=
  ⟨doomed_of_asksUnknownMode ⟨_, _, _, _, ⟨"order-1", none, true⟩, rfl, rfl, rfl⟩, rfl⟩

end Client
end WorkflowClient
