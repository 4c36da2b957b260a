import WorkflowClient.Proofs.Client.Calls
import WorkflowClient.Proofs.Client.Endings
import WorkflowClient.Proofs.Message.Requests
import WorkflowClient.Proofs.Options.Report
import WorkflowClient.Proofs.Registry

/-! Starts: which are refused, what is asked of the service, and what its answer comes to. -/
namespace WorkflowClient
open Message
open Diagnostic (tick)

namespace Registry
variable {r : Registry} {type state : String}

/-- The type is registered and has the state. -/
def Declares (r : Registry) (type state : String) : Prop :=
  ∃ t ∈ r.types, t.name = type ∧ state ∈ t.stateIds

/-- The type is registered and its runs may start from the state. -/
def StartsFrom (r : Registry) (type state : String) : Prop :=
  ∃ t ∈ r.types, t.name = type ∧ ⟨state, true⟩ ∈ t.states

theorem declares_iff : r.Declares type state ↔ (r.state? type state).isSome = true := by
  simp only [Option.isSome_iff_exists, r.indexes_types.state?, Declares, Declaration.stateIds,
    List.mem_map]
  constructor
  · rintro ⟨t, ht, hname, s, hs, hid⟩
    exact ⟨s, t, ht, hname, hs, hid⟩
  · rintro ⟨s, t, ht, hname, hs, hid⟩
    exact ⟨t, ht, hname, s, hs, hid⟩

theorem StartsFrom.declares (h : r.StartsFrom type state) : r.Declares type state := by
  obtain ⟨t, ht, hname, hs⟩ := h
  exact ⟨t, ht, hname, List.mem_map_of_mem (f := State.id) hs⟩

theorem startsFrom_iff :
    r.StartsFrom type state ↔ (r.state? type state).any (·.canStart) = true := by
  simp only [Option.any_eq_true, r.indexes_types.state?, StartsFrom]
  constructor
  · rintro ⟨t, ht, hname, hs⟩
    exact ⟨⟨state, true⟩, ⟨t, ht, hname, hs, rfl⟩, rfl⟩
  · rintro ⟨⟨id, canStart⟩, ⟨t, ht, hname, hs, rfl⟩, hstart⟩
    exact ⟨t, ht, hname, by simpa [← hstart] using hs⟩

end Registry

namespace Client
variable {c : Client} {type state : String} {options : Option StartOptions} {input : Value}

/-- The timeout of a start: the one that is given, or else that of the client's options. -/
def startTimeout (c : Client) : Option StartOptions → Int
  | some o => o.workflowTimeout
  | none => c.options.workflowTimeout

theorem startTimeout_nonneg (hc : c.options.check = .ok c.options)
    (ho : ∀ o ∈ options, o.check = .ok o) : 0 ≤ c.startTimeout options := by
  cases options with
  | none => exact Options.workflowTimeout_nonneg (Options.check_eq_ok_iff.mp hc).1
  | some o => exact (StartOptions.check_eq_ok_iff.mp (ho o rfl)).1

/-- The request that starts a run with a payload for its first state. -/
def starting (c : Client) (type state workflowId : String) (options : Option StartOptions)
    (payload : Option String) : StartRequest :=
  { workflowId, workerUrl := c.options.workerUrl, workflowType := type
    timeoutSeconds := c.startTimeout options, startState := state, input := payload }

/-- What is logged before a run is started. -/
def startingRecord (type state workflowId : String) : Log.Record :=
  ⟨.client, Log.debug, "Starting workflow " ++ tick workflowId ++ " of type " ++ tick type ++
    " at state " ++ tick state⟩

theorem startRequest_of_not_startsFrom (h : ¬ c.registry.StartsFrom type state)
    (workflowId : Value) (options : Option StartOptions) (input : Value) :
    c.startRequest type state workflowId options input =
      Run.reject (.invalidStart type state (c.registry.state? type state).isSome) :=
  if_neg fun hany => h (Registry.startsFrom_iff.mpr hany)

theorem startRequest_of_startsFrom (h : c.registry.StartsFrom type state) (workflowId : Value)
    (options : Option StartOptions) (input : Value) :
    c.startRequest type state workflowId options input = (do
      let payload ← Run.encode c.catalog input
      let request ← Run.checked (StartRequest.shape.ofMembers
        [("workflow_id", workflowId), ("iwf_worker_url", .str c.options.workerUrl),
          ("iwf_workflow_type", .str type),
          ("workflow_timeout_seconds", .int (c.startTimeout options)),
          ("start_state_id", .str state), ("state_input", ofText? payload)])
      let id ← Run.shown workflowId
      Run.debug ("Starting workflow " ++ tick id ++ " of type " ++ tick type ++ " at state " ++
        tick state)
      pure request) :=
  if_pos (Registry.startsFrom_iff.mp h)

theorem startRequest_of_encode_error (h : c.registry.StartsFrom type state)
    {e : Payload.EncodeFailure} (he : Payload.encode c.catalog input = .error e)
    (workflowId : Value) (options : Option StartOptions) :
    c.startRequest type state workflowId options input = ⟨.error (.encoding e), [], []⟩ := by
  rw [startRequest_of_startsFrom h, Run.encode, he]
  rfl

theorem startRequest_of_encode (h : c.registry.StartsFrom type state) {payload : Option String}
    (he : Payload.encode c.catalog input = .ok payload) (workflowId : String)
    (options : Option StartOptions) :
    c.startRequest type state (.str workflowId) options input =
      ⟨.ok (c.starting type state workflowId options payload), [],
        [startingRecord type state workflowId]⟩ := by
  have hchecked : StartRequest.shape.ofMembers
      [("workflow_id", .str workflowId), ("iwf_worker_url", .str c.options.workerUrl),
        ("iwf_workflow_type", .str type),
        ("workflow_timeout_seconds", .int (c.startTimeout options)),
        ("start_state_id", .str state), ("state_input", ofText? payload)] =
      .ok (c.starting type state workflowId options payload) :=
    StartRequest.ofMembers_eq_ok.mpr ⟨rfl, rfl, rfl, rfl, rfl, nullable_text_ofText? payload⟩
  have hencode : Run.encode c.catalog input = ⟨.ok payload, [], []⟩ := by
    rw [Run.encode, he]
    rfl
  rw [startRequest_of_startsFrom h, Run.bind_of_ok hencode, hchecked]
  rfl

/-- A start from its arguments to its result. A state that is not declared, or not as a starting
one, is refused whatever the input is; then an input without a payload is. Otherwise one request
goes out, with what was given and a timeout that is not negative, and its answer is searched for the
name of the run. -/
theorem start_outcomes (service : Service) (type state workflowId : String)
    {options : Option StartOptions} (input : Value) (hc : c.options.check = .ok c.options)
    (ho : ∀ o ∈ options, o.check = .ok o) :
    let run := c.start service type state (.str workflowId) options input
    (¬ c.registry.Declares type state →
      run.Refused (.invalidStart type state "is not declared for this workflow")) ∧
    (c.registry.Declares type state → ¬ c.registry.StartsFrom type state →
      run.Refused (.invalidStart type state "is not a starting state")) ∧
    (c.registry.StartsFrom type state →
      (∀ e, Payload.encode c.catalog input = .error e → run.Unencoded c.catalog input e) ∧
      ∀ payload, Payload.encode c.catalog input = .ok payload →
        let request := c.starting type state workflowId options payload
        (payload = none ↔ input = .none) ∧ 0 ≤ request.timeoutSeconds ∧
          run.calls = [.start request] ∧
          Run.Names "start" ((service.start request).result.map (·.runId)) run.result) := by
  refine ⟨fun hd => ?_, fun hd hs => ?_, fun hs => ⟨?_, ?_⟩⟩
  · have hs : ¬ c.registry.StartsFrom type state := fun hs => hd hs.declares
    have hnone : (c.registry.state? type state).isSome = false := by
      simpa [Registry.declares_iff] using hd
    rw [start, startRequest_of_not_startsFrom hs, hnone]
    exact Run.refused_reject (Diagnostic.shows_invalidStart_undeclared type state)
  · rw [start, startRequest_of_not_startsFrom hs, Registry.declares_iff.mp hd]
    exact Run.refused_reject (Diagnostic.shows_invalidStart_declared type state)
  · intro e he
    rw [start, Run.bind_of_error (startRequest_of_encode_error hs he _ _)]
    exact ⟨rfl, rfl, Payload.explains_of_encode he⟩
  · intro payload hp request
    have hrequest := startRequest_of_encode hs hp workflowId options
    obtain ⟨hcalls, hnames⟩ := Run.call_namedRun "start" (.start request)
      (service.start request) (·.runId)
    rw [start, Run.bind_of_ok hrequest]
    refine ⟨?_, startTimeout_nonneg hc ho, hcalls, hnames⟩
    rw [← Payload.encode_eq_none_iff (Γ := c.catalog), hp, Except.ok.injEq]

/-- Orders are validated first, and then shipped. -/
def staged : WorkflowType where
  toDeclaration := { name := "Order", states := [⟨"validate", true⟩, ⟨"ship", false⟩] }
  named := by decide
  states_nodup := by decide
  channels_nodup := by decide
  attributes_nodup := by decide

def depot : Client := { catalog := Samples.Orders.catalog, registry := ⟨[staged], by decide⟩ }

theorem startsFrom_validate : depot.registry.StartsFrom "Order" "validate" :=
  ⟨staged, List.mem_singleton_self _, rfl, List.mem_cons_self⟩

theorem check_depot : depot.options.check = .ok depot.options :=
  Options.check_eq_ok_iff.mpr ⟨by decide +kernel, rfl⟩

theorem start_outcomes_validate :
    depot.options.check = .ok depot.options ∧
      (∀ o ∈ some (StartOptions.mk 60), o.check = .ok o) ∧
      (depot.start obliging "Order" "validate" (.str "order-1") (some ⟨60⟩) (.str "now")).calls =
        [.start (depot.starting "Order" "validate" "order-1" (some ⟨60⟩) (some "\"now\""))] := by
  have ho : ∀ o ∈ some (StartOptions.mk 60), o.check = .ok o := by
    rintro _ ⟨⟩
    rfl
  have h := start_outcomes (c := depot) obliging "Order" "validate" "order-1" (.str "now")
    check_depot ho
  have hsent := (h.2.2 startsFrom_validate).2 (some "\"now\"") (by decide +kernel)
  exact ⟨check_depot, ho, hsent.2.2.1⟩

/-- An input that cannot be encoded, and is refused by none of the codec's errors. -/
theorem start_holder_fails :
    depot.registry.StartsFrom "Order" "validate" ∧
      (depot.start obliging "Order" "validate" (.str "order-1") none Payload.holder).result =
        .error (.encoding (.raised Payload.setAsKey)) ∧
      (Payload.EncodeFailure.raised Payload.setAsKey).diagnostic? = none :=
  ⟨startsFrom_validate, rfl, rfl⟩

end Client
end WorkflowClient
