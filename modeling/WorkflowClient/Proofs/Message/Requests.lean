import WorkflowClient.Message.Exchange
import WorkflowClient.Proofs.Message.Reading

/-! What each request is made of, if it can be made at all. -/
namespace WorkflowClient.Message
open Validation

theorem StartRequest.ofMembers_eq_ok {workflowId url type timeout state input : Value}
    {r : StartRequest} :
    StartRequest.shape.ofMembers
      [("workflow_id", workflowId), ("iwf_worker_url", url), ("iwf_workflow_type", type),
        ("workflow_timeout_seconds", timeout), ("start_state_id", state),
        ("state_input", input)] = .ok r ↔
      text workflowId = .ok r.workflowId ∧ text url = .ok r.workerUrl ∧
        text type = .ok r.workflowType ∧ integer timeout = .ok r.timeoutSeconds ∧
        text state = .ok r.startState ∧ nullable text input = .ok r.input := by
  simp only [Shape.ofMembers, StartRequest.shape, run_seq_eq_ok, run_map_eq_ok]
  constructor
  · rintro ⟨_, f, ⟨_, e, ⟨_, d, ⟨_, c, ⟨_, b, ⟨a, ha, rfl⟩, hb, rfl⟩, hc, rfl⟩, hd, rfl⟩, he, rfl⟩,
      hf, rfl⟩
    exact ⟨(field_eq_ok rfl).mp ha, (field_eq_ok rfl).mp hb, (field_eq_ok rfl).mp hc,
      (field_eq_ok rfl).mp hd, (field_eq_ok rfl).mp he, (field_eq_ok rfl).mp hf⟩
  · rintro ⟨ha, hb, hc, hd, he, hf⟩
    exact ⟨_, _, ⟨_, _, ⟨_, _, ⟨_, _, ⟨_, _, ⟨_, (field_eq_ok rfl).mpr ha, rfl⟩,
      (field_eq_ok rfl).mpr hb, rfl⟩, (field_eq_ok rfl).mpr hc, rfl⟩,
      (field_eq_ok rfl).mpr hd, rfl⟩, (field_eq_ok rfl).mpr he, rfl⟩,
      (field_eq_ok rfl).mpr hf, rfl⟩

theorem GetRequest.ofMembers_eq_ok {workflowId runId needsResults : Value} {r : GetRequest} :
    GetRequest.shape.ofMembers
      [("workflow_id", workflowId), ("workflow_run_id", runId),
        ("needs_results", needsResults)] = .ok r ↔
      text workflowId = .ok r.workflowId ∧ nullable text runId = .ok r.runId ∧
        truth needsResults = .ok r.needsResults := by
  simp only [Shape.ofMembers, GetRequest.shape, run_seq_eq_ok, run_map_eq_ok]
  constructor
  · rintro ⟨_, c, ⟨_, b, ⟨a, ha, rfl⟩, hb, rfl⟩, hc, rfl⟩
    exact ⟨(field_eq_ok rfl).mp ha, (field_eq_ok rfl).mp hb, (field_eq_ok rfl).mp hc⟩
  · rintro ⟨ha, hb, hc⟩
    exact ⟨_, _, ⟨_, _, ⟨_, (field_eq_ok rfl).mpr ha, rfl⟩, (field_eq_ok rfl).mpr hb, rfl⟩,
      (field_eq_ok rfl).mpr hc, rfl⟩

theorem SignalRequest.ofMembers_eq_ok {workflowId runId channel value : Value}
    {r : SignalRequest} :
    SignalRequest.shape.ofMembers
      [("workflow_id", workflowId), ("workflow_run_id", runId),
        ("signal_channel_name", channel), ("signal_value", value)] = .ok r ↔
      text workflowId = .ok r.workflowId ∧ nullable text runId = .ok r.runId ∧
        text channel = .ok r.channel ∧ nullable text value = .ok r.value := by
  simp only [Shape.ofMembers, SignalRequest.shape, run_seq_eq_ok, run_map_eq_ok]
  constructor
  · rintro ⟨_, d, ⟨_, c, ⟨_, b, ⟨a, ha, rfl⟩, hb, rfl⟩, hc, rfl⟩, hd, rfl⟩
    exact ⟨(field_eq_ok rfl).mp ha, (field_eq_ok rfl).mp hb, (field_eq_ok rfl).mp hc,
      (field_eq_ok rfl).mp hd⟩
  · rintro ⟨ha, hb, hc, hd⟩
    exact ⟨_, _, ⟨_, _, ⟨_, _, ⟨_, (field_eq_ok rfl).mpr ha, rfl⟩, (field_eq_ok rfl).mpr hb, rfl⟩,
      (field_eq_ok rfl).mpr hc, rfl⟩, (field_eq_ok rfl).mpr hd, rfl⟩

theorem AttributesRequest.ofMembers_eq_ok {workflowId runId keys : Value}
    {r : AttributesRequest} :
    AttributesRequest.shape.ofMembers
      [("workflow_id", workflowId), ("workflow_run_id", runId),
        ("attribute_keys", keys)] = .ok r ↔
      text workflowId = .ok r.workflowId ∧ nullable text runId = .ok r.runId ∧
        nullable (list text) keys = .ok r.keys := by
  simp only [Shape.ofMembers, AttributesRequest.shape, run_seq_eq_ok, run_map_eq_ok]
  constructor
  · rintro ⟨_, c, ⟨_, b, ⟨a, ha, rfl⟩, hb, rfl⟩, hc, rfl⟩
    exact ⟨(field_eq_ok rfl).mp ha, (field_eq_ok rfl).mp hb, (field_eq_ok rfl).mp hc⟩
  · rintro ⟨ha, hb, hc⟩
    exact ⟨_, _, ⟨_, _, ⟨_, (field_eq_ok rfl).mpr ha, rfl⟩, (field_eq_ok rfl).mpr hb, rfl⟩,
      (field_eq_ok rfl).mpr hc, rfl⟩

/-- The request for a new run from a point: of the four own fields it has only the point's. -/
def ResetPoint.request (p : ResetPoint) (workflowId : String) (runId reason : Option String)
    (skipSignalReapply : Bool) : ResetRequest :=
  let r : ResetRequest := { workflowId, runId, type := p.type, reason, skipSignalReapply }
  match p with
  | .historyEvent id => { r with historyEventId := some id }
  | .badBinary checksum => { r with badBinaryChecksum := some checksum }
  | .completedTime earliest => { r with earliestTime := some earliest }
  | .lastCompleted offset => { r with decisionOffset := some offset }

theorem choice_toValue (t : ResetType) :
    choice ResetType.choices (ResetType.choices.toValue t) = .ok t := by
  cases t <;> rfl

theorem ResetRequest.ofMembers_eq_ok {workflowId runId reason skip : Value} {p : ResetPoint}
    {r : ResetRequest} :
    ResetRequest.shape.ofMembers
      ([("workflow_id", workflowId), ("workflow_run_id", runId), ("reason", reason),
        ("skip_signal_reapply", skip)] ++ p.fields) = .ok r ↔
      ∃ id run why skips, text workflowId = .ok id ∧ nullable text runId = .ok run ∧
        nullable text reason = .ok why ∧ truth skip = .ok skips ∧
        r = p.request id run why skips := by
  simp only [Shape.ofMembers, ResetRequest.shape, run_seq_eq_ok, run_map_eq_ok]
  constructor
  · rintro ⟨_, i, ⟨_, h, ⟨_, g, ⟨_, f, ⟨_, e, ⟨_, d, ⟨_, c, ⟨_, b, ⟨a, ha, rfl⟩, hb, rfl⟩, hc, rfl⟩,
      hd, rfl⟩, he, rfl⟩, hf, rfl⟩, hg, rfl⟩, hh, rfl⟩, hi, rfl⟩
    -- The names that are looked up in vain come after those that every point has.
    have ht : choice ResetType.choices (ResetType.choices.toValue p.type) = .ok c := by
      cases p <;> exact (field_eq_ok rfl).mp hc
    rw [choice_toValue, Except.ok.injEq] at ht
    refine ⟨a, b, h, i, ?_, ?_, ?_, ?_, ?_⟩
    · cases p <;> exact (field_eq_ok rfl).mp ha
    · cases p <;> exact (field_eq_ok rfl).mp hb
    · cases p <;> exact (field_eq_ok rfl).mp hh
    · cases p <;> exact (field_eq_ok rfl).mp hi
    · subst ht
      cases p <;> cases hd <;> cases he <;> cases hf <;> cases hg <;> rfl
  · rintro ⟨id, run, why, skips, ha, hb, hh, hi, rfl⟩
    have ht := choice_toValue p.type
    cases p <;>
      exact ⟨_, _, ⟨_, _, ⟨_, _, ⟨_, _, ⟨_, _, ⟨_, _, ⟨_, _, ⟨_, _, ⟨_, (field_eq_ok rfl).mpr ha, rfl⟩,
        (field_eq_ok rfl).mpr hb, rfl⟩, (field_eq_ok rfl).mpr ht, rfl⟩, rfl, rfl⟩, rfl, rfl⟩,
        rfl, rfl⟩, rfl, rfl⟩, (field_eq_ok rfl).mpr hh, rfl⟩, (field_eq_ok rfl).mpr hi, rfl⟩

end WorkflowClient.Message
