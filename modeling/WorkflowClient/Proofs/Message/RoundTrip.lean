import WorkflowClient.Message.Exchange
import WorkflowClient.Message.Reset
import WorkflowClient.Proofs.Message.Wire
import WorkflowClient.Proofs.Payload.Text

/-! Requests, answers and what is in them come back from the wire as they were sent. -/
namespace WorkflowClient.Message

theorem StartRequest.carries {r : StartRequest} (h : Number.writable r.timeoutSeconds = true) :
    Carries shape.ofValue (shape.toValue r) r := by
  have hm := Mirrors.make StartRequest.mk
    |>.required "workflow_id" (carries_text r.workflowId)
    |>.required "iwf_worker_url" (carries_text r.workerUrl)
    |>.required "iwf_workflow_type" (carries_text r.workflowType)
    |>.required "workflow_timeout_seconds" (carries_integer h)
    |>.required "start_state_id" (carries_text r.startState)
    |>.optional "state_input" (carries_text? r.input)
  have hu : Unambiguous ["workflow_id", "iwf_worker_url", "iwf_workflow_type",
    "workflow_timeout_seconds", "start_state_id", "state_input"] := by decide
  exact Mirrors.carries (S := shape) hm hu

theorem StartResponse.carries (r : StartResponse) : Carries shape.ofValue (shape.toValue r) r := by
  have hm := Mirrors.make StartResponse.mk
    |>.optional "workflow_run_id" (carries_text? r.runId)
  have hu : Unambiguous ["workflow_run_id"] := by decide
  exact Mirrors.carries (S := shape) hm hu

theorem GetRequest.carries (r : GetRequest) : Carries shape.ofValue (shape.toValue r) r := by
  have hm := Mirrors.make GetRequest.mk
    |>.required "workflow_id" (carries_text r.workflowId)
    |>.optional "workflow_run_id" (carries_text? r.runId)
    |>.optional "needs_results" (carries_truthOr true r.needsResults)
  have hu : Unambiguous ["workflow_id", "workflow_run_id", "needs_results"] := by decide
  exact Mirrors.carries (S := shape) hm hu

theorem StateOutput.carries (o : StateOutput) : Carries shape.ofValue (shape.toValue o) o := by
  have hm := Mirrors.make StateOutput.mk
    |>.required "completed_state_id" (carries_text o.stateId)
    |>.optional "completed_state_output" (carries_text? o.payload)
  have hu : Unambiguous ["completed_state_id", "completed_state_output"] := by decide
  exact Mirrors.carries (S := shape) hm hu

theorem GetResponse.carries (r : GetResponse) : Carries shape.ofValue (shape.toValue r) r := by
  obtain ⟨runId, status, results⟩ := r
  have hm {v w : Value} (hv : CarriesOr none (nullable (choice RunStatus.choices)) v status)
      (hw : CarriesOr none (nullable (list StateOutput.shape.ofValue)) w results) :=
    Mirrors.make GetResponse.mk
      |>.optional "workflow_run_id" (carries_text? runId)
      |>.optional "workflow_status" hv
      |>.optional "results" hw
  have hu : Unambiguous ["workflow_run_id", "workflow_status", "results"] := by decide
  have hstatus (s : RunStatus) :
      Carries (choice RunStatus.choices) (RunStatus.choices.toValue s) s :=
    carries_choice (by cases s <;> rfl)
  have hresults := carries_list StateOutput.carries
  cases status with
  | none =>
    cases results with
    | none => exact Mirrors.carries (S := shape) (hm .omitted .omitted) hu
    | some os => exact Mirrors.carries (S := shape) (hm .omitted (hresults os).orNone) hu
  | some s =>
    cases results with
    | none => exact Mirrors.carries (S := shape) (hm (hstatus s).orNone .omitted) hu
    | some os => exact Mirrors.carries (S := shape) (hm (hstatus s).orNone (hresults os).orNone) hu

theorem SignalRequest.carries (r : SignalRequest) : Carries shape.ofValue (shape.toValue r) r := by
  have hm := Mirrors.make SignalRequest.mk
    |>.required "workflow_id" (carries_text r.workflowId)
    |>.optional "workflow_run_id" (carries_text? r.runId)
    |>.required "signal_channel_name" (carries_text r.channel)
    |>.optional "signal_value" (carries_text? r.value)
  have hu : Unambiguous ["workflow_id", "workflow_run_id", "signal_channel_name",
    "signal_value"] := by decide
  exact Mirrors.carries (S := shape) hm hu

theorem ResetRequest.carries {r : ResetRequest}
    (hevent : ∀ n ∈ r.historyEventId, Number.writable n = true)
    (hoffset : ∀ n ∈ r.decisionOffset, Number.writable n = true) :
    Carries shape.ofValue (shape.toValue r) r := by
  have htype : Carries (choice ResetType.choices) (ResetType.choices.toValue r.type) r.type :=
    carries_choice (by cases r.type <;> rfl)
  have hm := Mirrors.make ResetRequest.mk
    |>.required "workflow_id" (carries_text r.workflowId)
    |>.optional "workflow_run_id" (carries_text? r.runId)
    |>.required "reset_type" htype
    |>.optional "history_event_id" (carries_integer? hevent)
    |>.optional "reset_bad_binary_checksum" (carries_text? r.badBinaryChecksum)
    |>.optional "earliest_time" (carries_text? r.earliestTime)
    |>.optional "decision_offset" (carries_integer? hoffset)
    |>.optional "reason" (carries_text? r.reason)
    |>.optional "skip_signal_reapply" (carries_truthOr false r.skipSignalReapply)
  have hu : Unambiguous ["workflow_id", "workflow_run_id", "reset_type", "history_event_id",
    "reset_bad_binary_checksum", "earliest_time", "decision_offset", "reason",
    "skip_signal_reapply"] := by decide
  exact Mirrors.carries (S := shape) hm hu

theorem ResetResponse.carries (r : ResetResponse) : Carries shape.ofValue (shape.toValue r) r := by
  have hm := Mirrors.make ResetResponse.mk
    |>.optional "workflow_run_id" (carries_text? r.runId)
  have hu : Unambiguous ["workflow_run_id"] := by decide
  exact Mirrors.carries (S := shape) hm hu

theorem AttributesRequest.carries (r : AttributesRequest) :
    Carries shape.ofValue (shape.toValue r) r := by
  obtain ⟨workflowId, runId, keys⟩ := r
  have hm {v : Value} (hv : CarriesOr none (nullable (list text)) v keys) :=
    Mirrors.make AttributesRequest.mk
      |>.required "workflow_id" (carries_text workflowId)
      |>.optional "workflow_run_id" (carries_text? runId)
      |>.optional "attribute_keys" hv
  have hu : Unambiguous ["workflow_id", "workflow_run_id", "attribute_keys"] := by decide
  cases keys with
  | none => exact Mirrors.carries (S := shape) (hm .omitted) hu
  | some ks => exact Mirrors.carries (S := shape) (hm (carries_list carries_text ks).orNone) hu

theorem KeyValue.carries (kv : KeyValue) : Carries shape.ofValue (shape.toValue kv) kv := by
  have hm := Mirrors.make KeyValue.mk
    |>.required "key" (carries_text kv.key)
    |>.optional "value" (carries_text? kv.value)
  have hu : Unambiguous ["key", "value"] := by decide
  exact Mirrors.carries (S := shape) hm hu

theorem AttributesResponse.carries (r : AttributesResponse) :
    Carries shape.ofValue (shape.toValue r) r := by
  obtain ⟨runId, attributes⟩ := r
  have hm {v : Value} (hv : CarriesOr none (nullable (list KeyValue.shape.ofValue)) v attributes) :=
    Mirrors.make AttributesResponse.mk
      |>.optional "workflow_run_id" (carries_text? runId)
      |>.optional "query_attributes" hv
  have hu : Unambiguous ["workflow_run_id", "query_attributes"] := by decide
  cases attributes with
  | none => exact Mirrors.carries (S := shape) (hm .omitted) hu
  | some kvs =>
    exact Mirrors.carries (S := shape) (hm (carries_list KeyValue.carries kvs).orNone) hu

/-- The classes of records that are sent and received, alone or in others. The points of resets are
never sent. -/
inductive Kind
  | startRequest
  | startResponse
  | getRequest
  | getResponse
  | stateOutput
  | signalRequest
  | resetRequest
  | resetResponse
  | attributesRequest
  | attributesResponse
  | keyValue

namespace Kind

def Record : Kind → Type
  | startRequest => StartRequest
  | startResponse => StartResponse
  | getRequest => GetRequest
  | getResponse => GetResponse
  | stateOutput => StateOutput
  | signalRequest => SignalRequest
  | resetRequest => ResetRequest
  | resetResponse => ResetResponse
  | attributesRequest => AttributesRequest
  | attributesResponse => AttributesResponse
  | keyValue => KeyValue

def shape : (k : Kind) → Shape k.Record
  | startRequest => StartRequest.shape
  | startResponse => StartResponse.shape
  | getRequest => GetRequest.shape
  | getResponse => GetResponse.shape
  | stateOutput => StateOutput.shape
  | signalRequest => SignalRequest.shape
  | resetRequest => ResetRequest.shape
  | resetResponse => ResetResponse.shape
  | attributesRequest => AttributesRequest.shape
  | attributesResponse => AttributesResponse.shape
  | keyValue => KeyValue.shape

theorem carries (k : Kind) (a : k.Record) (h : (k.shape.toValue a).writable = true) :
    Carries k.shape.ofValue (k.shape.toValue a) a := by
  rw [Shape.toValue, Value.writable, Value.writableFields_iff] at h
  cases k with
  | startRequest =>
    simp only [shape, StartRequest.shape, List.forall_mem_cons] at h
    obtain ⟨-, -, -, htimeout, -⟩ := h
    exact StartRequest.carries htimeout
  | startResponse => exact StartResponse.carries a
  | getRequest => exact GetRequest.carries a
  | getResponse => exact GetResponse.carries a
  | stateOutput => exact StateOutput.carries a
  | signalRequest => exact SignalRequest.carries a
  | resetRequest =>
    have hint {n : Option Int} (hn : (ofInt? n).writable = true) :
        ∀ m ∈ n, Number.writable m = true := by
      rintro m rfl
      exact hn
    simp only [shape, ResetRequest.shape, List.forall_mem_cons] at h
    obtain ⟨-, -, -, hevent, -, -, hoffset, -⟩ := h
    exact ResetRequest.carries (hint hevent) (hint hoffset)
  | resetResponse => exact ResetResponse.carries a
  | attributesRequest => exact AttributesRequest.carries a
  | attributesResponse => exact AttributesResponse.carries a
  | keyValue => exact KeyValue.carries a

end Kind

/-- What is sent for a record has a text, and the record that is read from the text is the one that
was sent. Nothing in it is null: it has the fields with a value as its members, in their order and
under their wire names. -/
theorem read_toWire (k : Kind) (a : k.Record) (h : (k.shape.toValue a).writable = true) :
    (∃ text, (k.shape.toWire a).print? Json.compact = some text ∧
      Payload.loads (some text) = .ok (k.shape.toWire a)) ∧
    k.shape.ofValue (.ofJson (k.shape.toWire a)) = .ok a ∧
    ¬ Json.Part .null (k.shape.toWire a) ∧
    ∃ members, k.shape.toWire a = .object members ∧
      members.map (·.1) = ((k.shape.fields a).filter hasValue).map fun m => camel m.1 := by
  obtain ⟨hwire, hread⟩ := k.carries a h
  have hl : Json.Legible (k.shape.toWire a) := hwire.legible
  exact ⟨⟨_, hl.print_eq, Payload.loads_chars hl hwire.neat.settle⟩, hread,
    fun hp => (hwire.part hp).1 rfl, _, rfl, names_wireMembers _⟩

/-- A run of two results, one of which left nothing behind. -/
def completedRun : GetResponse where
  runId := some "run-1"
  status := some .continuedAsNew
  results := some [{ stateId := "charge" }, { stateId := "ship", payload := some "\"sent\"" }]

theorem read_toWire_completedRun :
    (GetResponse.shape.toValue completedRun).writable = true ∧
      GetResponse.shape.ofValue (.ofJson (GetResponse.shape.toWire completedRun)) =
        .ok completedRun := by
  have hw : (GetResponse.shape.toValue completedRun).writable = true := by decide
  exact ⟨hw, (read_toWire .getResponse completedRun hw).2.1⟩

end WorkflowClient.Message
