import Mathlib.Data.List.Forall2
import WorkflowClient.Proofs.Client.Attributes
import WorkflowClient.Proofs.Client.Records
import WorkflowClient.Proofs.Client.Signal

/-! The log of a client as a trace of what it did: the calls that it made, and those that it
rejected. -/
namespace WorkflowClient
open Message

/-- The identifiers of a run that requests can have. -/
def Identifies (workflowId runId : Value) : Prop :=
  (∃ id, text workflowId = .ok id) ∧ ∃ run, nullable text runId = .ok run

/-- The operation is announced and then fails before its call: no request can have its identifiers,
or its value has no payload. A start and a reset are announced once their request is made. -/
def Client.AnnouncesInVain (c : Client) : Operation → Prop
  | .result workflowId runId _ _ => workflowId.shown?.isSome = true ∧ ¬ Identifies workflowId runId
  | .signal type workflowId runId channel value =>
    ∃ t, c.registry.get? type = some t ∧ ∃ d, t.channelType? channel = some d ∧
      d.accepts c.catalog value = .ok true ∧ workflowId.shown?.isSome = true ∧
      ((∃ e, Payload.encode c.catalog value = .error e) ∨ ¬ Identifies workflowId runId)
  | .query type workflowId runId keys =>
    ∃ t, c.registry.get? type = some t ∧ Client.unknown t keys = [] ∧
      workflowId.shown?.isSome = true ∧ ¬ Identifies workflowId runId
  | .start .. | .reset .. => False

namespace Client
variable {c : Client} {s : Descriptors} {o : Operation}

theorem prepares_startRequest (type state : String) (workflowId : Value)
    (options : Option StartOptions) (input : Value) :
    (c.startRequest type state workflowId options input).Prepares False := by
  unfold startRequest
  dsimp only
  split
  · refine (Run.quiet_encode _ _).prepares_bind fun _ => ?_
    refine (Run.quiet_checked _).prepares_bind fun request => ?_
    exact (Run.quiet_shown _).prepares_bind fun _ => Run.prepares_debug _ request
  · exact Run.prepares_reject rfl

theorem prepares_resetRequest (workflowId runId point reason skip : Value) :
    (resetRequest workflowId runId point reason skip).Prepares False := by
  unfold resetRequest
  refine (Run.quiet_checked _).prepares_bind fun _ => ?_
  refine (Run.quiet_checked _).prepares_bind fun request => ?_
  exact (Run.quiet_shown _).prepares_bind fun _ => Run.prepares_debug _ request

theorem exists_getRequest_iff {workflowId runId : Value} :
    (∃ request, GetRequest.shape.ofMembers
      [("workflow_id", workflowId), ("workflow_run_id", runId),
        ("needs_results", .bool true)] = .ok request) ↔ Identifies workflowId runId := by
  simp only [GetRequest.ofMembers_eq_ok]
  constructor
  · rintro ⟨request, hid, hrun, -⟩
    exact ⟨⟨_, hid⟩, _, hrun⟩
  · rintro ⟨⟨id, hid⟩, run, hrun⟩
    exact ⟨⟨id, run, true⟩, hid, hrun, rfl⟩

theorem exists_signalRequest_iff {workflowId runId : Value} {channel : String}
    {payload : Option String} :
    (∃ request, SignalRequest.shape.ofMembers
      [("workflow_id", workflowId), ("workflow_run_id", runId),
        ("signal_channel_name", .str channel), ("signal_value", ofText? payload)] =
      .ok request) ↔ Identifies workflowId runId := by
  simp only [SignalRequest.ofMembers_eq_ok]
  constructor
  · rintro ⟨request, hid, hrun, -⟩
    exact ⟨⟨_, hid⟩, _, hrun⟩
  · rintro ⟨⟨id, hid⟩, run, hrun⟩
    exact ⟨⟨id, run, channel, payload⟩, hid, hrun, rfl, nullable_text_ofText? payload⟩

theorem exists_attributesRequest_iff {workflowId runId : Value} (ks : List String) :
    (∃ request, AttributesRequest.shape.ofMembers
      [("workflow_id", workflowId), ("workflow_run_id", runId),
        ("attribute_keys", if ks.isEmpty then .none else .sequence .list (ks.map .str))] =
      .ok request) ↔ Identifies workflowId runId := by
  simp only [AttributesRequest.ofMembers_eq_ok]
  constructor
  · rintro ⟨request, hid, hrun, -⟩
    exact ⟨⟨_, hid⟩, _, hrun⟩
  · rintro ⟨⟨id, hid⟩, run, hrun⟩
    exact ⟨⟨id, run, _⟩, hid, hrun, nullable_list_keys ks⟩

/-- A value that has a payload is sent to a run that is identified. -/
theorem exists_signal_iff {workflowId runId value : Value} {channel : String} :
    (∃ request, (do
      let payload ← Run.encode c.catalog value
      Run.checked (SignalRequest.shape.ofMembers
        [("workflow_id", workflowId), ("workflow_run_id", runId),
          ("signal_channel_name", .str channel), ("signal_value", ofText? payload)]) :
      Run SignalRequest).result = .ok request) ↔
      (∃ payload, Payload.encode c.catalog value = .ok payload) ∧ Identifies workflowId runId := by
  simp only [Run.result_bind_eq_ok, Run.result_encode_eq_ok, Run.result_checked_eq_ok]
  constructor
  · rintro ⟨request, payload, hp, hr⟩
    exact ⟨⟨payload, hp⟩, exists_signalRequest_iff.mp ⟨request, hr⟩⟩
  · rintro ⟨⟨payload, hp⟩, hi⟩
    obtain ⟨request, hr⟩ := exists_signalRequest_iff.mpr hi
    exact ⟨request, payload, hp, hr⟩

theorem prepares_getRequest (workflowId runId : Value) :
    (getRequest workflowId runId).Prepares
      (workflowId.shown?.isSome = true ∧ ¬ Identifies workflowId runId) := by
  unfold getRequest
  refine ((Run.quiet_checked _).prepares_announced workflowId _).congr ?_
  rw [Run.failed_iff, ← exists_getRequest_iff]
  simp only [Run.result_checked_eq_ok]

theorem prepares_signalRequest (type : String) (workflowId runId : Value) (channel : String)
    (value : Value) : (c.signalRequest type workflowId runId channel value).Prepares
      (c.AnnouncesInVain (.signal type workflowId runId channel value)) := by
  unfold signalRequest
  split
  · rename_i ht
    refine (Run.prepares_reject rfl).of_not ?_
    rintro ⟨t, ht', -⟩
    cases ht.symm.trans ht'
  · rename_i t ht
    split
    · rename_i hd
      refine (Run.prepares_reject rfl).of_not ?_
      rintro ⟨t', ht', d, hd', -⟩
      cases ht.symm.trans ht'
      cases hd.symm.trans hd'
    · rename_i d hd
      split
      · rename_i x ha
        refine (Run.prepares_fail rfl).of_not ?_
        rintro ⟨t', ht', d', hd', ha', -⟩
        cases ht.symm.trans ht'
        cases hd.symm.trans hd'
        cases ha.symm.trans ha'
      · rename_i ha
        refine (Run.prepares_reject rfl).of_not ?_
        rintro ⟨t', ht', d', hd', ha', -⟩
        cases ht.symm.trans ht'
        cases hd.symm.trans hd'
        cases ha.symm.trans ha'
      · rename_i ha
        have hquiet := (Run.quiet_encode c.catalog value).bind fun payload =>
          Run.quiet_checked (SignalRequest.shape.ofMembers
            [("workflow_id", workflowId), ("workflow_run_id", runId),
              ("signal_channel_name", .str channel), ("signal_value", ofText? payload)])
        refine (hquiet.prepares_announced workflowId _).congr ?_
        rw [Run.failed_iff, exists_signal_iff]
        constructor
        · rintro ⟨hshown, hnot⟩
          refine ⟨t, ht, d, hd, ha, hshown, ?_⟩
          cases he : Payload.encode c.catalog value with
          | error e => exact .inl ⟨e, rfl⟩
          | ok payload => exact .inr fun hi => hnot ⟨⟨payload, he⟩, hi⟩
        · rintro ⟨t', ht', d', hd', -, hshown, hfails⟩
          refine ⟨hshown, fun ⟨⟨payload, hp⟩, hi⟩ => ?_⟩
          rcases hfails with ⟨e, he⟩ | hnot
          · cases he.symm.trans hp
          · exact hnot hi

theorem exists_query_iff {t : WorkflowType} {workflowId runId : Value} {ks : List String} :
    (∃ q, (do
      let request ← Run.checked (AttributesRequest.shape.ofMembers
        [("workflow_id", workflowId), ("workflow_run_id", runId),
          ("attribute_keys", if ks.isEmpty then .none else .sequence .list (ks.map .str))])
      pure (t, request) : Run (WorkflowType × AttributesRequest)).result = .ok q) ↔
      Identifies workflowId runId := by
  rw [← exists_attributesRequest_iff ks]
  constructor
  · rintro ⟨q, hq⟩
    obtain ⟨request, hr, -⟩ := Run.result_bind_pure hq
    exact ⟨request, Run.result_checked_eq_ok.mp hr⟩
  · rintro ⟨request, hr⟩
    exact ⟨(t, request), Run.result_bind_eq_ok.mpr ⟨request, Run.result_checked_eq_ok.mpr hr, rfl⟩⟩

theorem prepares_attributesRequest (type : String) (workflowId runId : Value)
    (keys : Option Keys) : (c.attributesRequest type workflowId runId keys).Prepares
      (c.AnnouncesInVain (.query type workflowId runId keys)) := by
  unfold attributesRequest
  split
  · rename_i ht
    refine (Run.prepares_reject rfl).of_not ?_
    rintro ⟨t, ht', -⟩
    cases ht.symm.trans ht'
  · rename_i t ht
    have hunknown := filter_eq_unknown t keys
    dsimp only
    split
    · rename_i hnil
      have hquiet := (Run.quiet_checked (AttributesRequest.shape.ofMembers
        [("workflow_id", workflowId), ("workflow_run_id", runId),
          ("attribute_keys", if (asked keys).isEmpty then .none
            else .sequence .list ((asked keys).map .str))])).bind fun request =>
          Run.quiet_pure (t, request)
      refine (hquiet.prepares_announced workflowId _).congr ?_
      rw [Run.failed_iff, exists_query_iff]
      constructor
      · rintro ⟨hshown, hnot⟩
        exact ⟨t, ht, hunknown.symm.trans hnil, hshown, hnot⟩
      · rintro ⟨t', ht', -, hshown, hnot⟩
        exact ⟨hshown, hnot⟩
    · rename_i hne
      refine (Run.prepares_reject rfl).of_not ?_
      rintro ⟨t', ht', hk, -⟩
      cases ht.symm.trans ht'
      exact hne (hunknown.trans hk)

theorem prepares_plan (c : Client) (s : Descriptors) (o : Operation) :
    (c.plan s o).Prepares (c.AnnouncesInVain o) := by
  cases o with
  | start => exact (prepares_startRequest ..).map _
  | result => exact (prepares_getRequest ..).map _
  | signal => exact (prepares_signalRequest ..).map _
  | reset => exact (prepares_resetRequest ..).map _
  | query => exact (prepares_attributesRequest ..).map _

theorem quiet_namedRun (operation : String) (runId : Option String) :
    (namedRun operation runId).Quiet := by
  cases runId with
  | none => exact Run.quiet_fail rfl
  | some id => exact Run.quiet_pure id

theorem quiet_shaped (workflowId : Value) (mode : String) (target : Target)
    (os : List StateOutput) : (c.shaped s workflowId mode target os).1.Quiet := by
  unfold shaped
  split
  · exact Run.quiet_fail rfl
  · exact Run.quiet_pure _
  · unfold onlyOutput
    split
    · exact Run.quiet_pure _
    · split
      · exact Run.quiet_fail rfl
      · exact Run.quiet_decoded (Payload.foreign_decode _ _ _)
    · exact Run.quiet_fail rfl

theorem quiet_attributeType (t : WorkflowType) (key : String) : (attributeType t key).Quiet := by
  unfold attributeType
  split
  · exact Run.quiet_pure _
  · refine (Run.quiet_warning ?_).bind fun _ => Run.quiet_pure _
    -- The warning is none about a rejected call: it begins with another letter.
    simp [Log.Record.tellsRejection, rejectionHead, List.isPrefixOf]

theorem quiet_decodeAttributes (t : WorkflowType) (found : List (String × Value))
    (kvs : List KeyValue) : (c.decodeAttributes t found kvs).Quiet := by
  induction kvs generalizing found with
  | nil => exact Run.quiet_pure found
  | cons kv rest ih =>
    unfold decodeAttributes
    split
    · exact ih found
    · refine (quiet_attributeType t kv.key).bind fun _ => ?_
      exact (Run.quiet_decoded (Payload.foreign_decodeWith _ _)).bind fun _ => ih _

theorem quiet_attributesOf (t : WorkflowType) (response : AttributesResponse) :
    (c.attributesOf t response).Quiet := by
  unfold attributesOf
  split
  · exact Run.quiet_fail rfl
  · exact quiet_decodeAttributes ..

/-- What is made of an answer announces and rejects nothing. -/
theorem quiet_next {p : Pending (Run Value × Descriptors)} (h : (c.plan s o).result = .ok p)
    (a : p.call.Answer) : (p.next a).1.Quiet := by
  cases o with
  | start =>
    obtain ⟨_, -, rfl⟩ := Run.result_bind_pure h
    exact (quiet_namedRun ..).map _
  | result =>
    obtain ⟨_, -, rfl⟩ := Run.result_bind_pure h
    exact quiet_shaped ..
  | signal =>
    obtain ⟨_, -, rfl⟩ := Run.result_bind_pure h
    exact Run.quiet_pure _
  | reset =>
    obtain ⟨_, -, rfl⟩ := Run.result_bind_pure h
    exact (quiet_namedRun ..).map _
  | query =>
    obtain ⟨_, -, rfl⟩ := Run.result_bind_pure h
    exact (quiet_attributesOf ..).map _

/-- A call is made quietly, and so is everything that its answer comes to. -/
theorem carryOut_of_ok {service : Service} (hs : service.Foreign)
    {p : Pending (Run Value × Descriptors)} (hp : (c.plan s o).result = .ok p) :
    ((c.plan s o).carryOut service s).1.announced = (c.plan s o).announced ∧
      ((c.plan s o).carryOut service s).1.rejections = (c.plan s o).rejections ∧
      ((c.plan s o).carryOut service s).1.isRejected = false := by
  have hlog := hs p.call
  rw [Run.carryOut, hp]
  dsimp only
  cases (service.answer p.call).result with
  | error e =>
    simp [Run.announced, Run.rejections, Run.isRejected, hlog.countP_announcesCall,
      hlog.countP_tellsRejection, Failure.isRejection]
  | ok a =>
    obtain ⟨hannounced, hrejections, hrejected⟩ := quiet_next hp a
    unfold Run.announced at hannounced
    unfold Run.rejections at hrejections
    exact ⟨by simp [Run.announced, hlog.countP_announcesCall, hannounced],
      by simp [Run.rejections, hlog.countP_tellsRejection, hrejections], hrejected⟩

/-- The log of one operation: what is told before its call is all that it tells. -/
theorem traced_perform {service : Service} (hs : service.Foreign) (c : Client) (s : Descriptors)
    (o : Operation) : (c.perform service s o).1.Traced (c.AnnouncesInVain o) := by
  have hprepares := prepares_plan c s o
  have hrejections := hprepares.rejections
  have hcalls := calls_perform c service s o
  rw [Run.isRejected] at hrejections
  cases hp : (c.plan s o).result with
  | error e =>
    have hrun : (c.perform service s o).1 = ⟨.error e, [], (c.plan s o).log⟩ := by
      rw [perform_eq_carryOut, Run.carryOut, hp, calls_plan]
    rw [hp] at hrejections
    rw [hrun]
    exact ⟨hrejections, Nat.zero_le _, hprepares.failed e hp, fun hv => ⟨hprepares.vain hv, rfl⟩⟩
  | ok p =>
    obtain ⟨hone, hvain⟩ := hprepares.ready p hp
    obtain ⟨hannounced, htold, hrejected⟩ := carryOut_of_ok hs hp
    rw [← perform_eq_carryOut] at hannounced htold hrejected
    rw [hp] at hrejections hcalls
    refine ⟨?_, ?_, fun _ => ?_, fun hv => absurd hv hvain⟩
    · rw [htold, hrejections, hrejected]
    · rw [hcalls, List.length_singleton]
    · rw [hannounced, hone, hcalls, List.length_singleton]

/-- Operations one after the other, each on a service that answers in its own way. -/
def runs (c : Client) : Descriptors → List (Service × Operation) → List (Run Value)
  | _, [] => []
  | s, (service, o) :: rest =>
    let (run, s) := c.perform service s o
    run :: c.runs s rest

/-- The log of a client as a trace of what it did, step by step: it tells of a rejection just where
there is one, and announces each call that is made. Of the operations without a call it announces,
once and in vain, those that fail between the announcement and the call. -/
theorem traced_runs {steps : List (Service × Operation)} (h : ∀ step ∈ steps, step.1.Foreign)
    (c : Client) (s : Descriptors) :
    List.Forall₂ (fun step run => run.Traced (c.AnnouncesInVain step.2)) steps
      (c.runs s steps) := by
  induction steps generalizing s with
  | nil => exact .nil
  | cons step rest ih =>
    rw [List.forall_mem_cons] at h
    exact .cons (traced_perform h.1 c s step.2) (ih h.2 _)

/-- The outputs of a run are asked for, and then a signal is sent to a type that is not known. -/
def asks : List (Service × Operation) :=
  [(obliging, .result (.str "order-1") .none "SIMPLE" (.type .any)),
    (obliging, .signal "Order" (.str "order-1") .none "cancel" (.int 1))]

theorem traced_runs_asks : (∀ step ∈ asks, step.1.Foreign) ∧
    ∃ waited refused, bare.runs {} asks = [waited, refused] ∧
      waited.announced = 1 ∧ refused.rejections = 1 := by
  have hforeign : ∀ step ∈ asks, step.1.Foreign := by
    simp only [asks, List.forall_mem_cons]
    exact ⟨foreign_obliging, foreign_obliging, by simp⟩
  have hknown : ¬ bare.AnnouncesInVain
      (.result (.str "order-1") .none "SIMPLE" (.type .any)) :=
    fun h => h.2 ⟨⟨_, rfl⟩, _, rfl⟩
  match traced_runs hforeign bare {} with
  | .cons hwaited (.cons hrefused .nil) =>
    exact ⟨hforeign, _, _, rfl, hwaited.faithful hknown, hrefused.rejections⟩

/-- An identifier that is no text, and a value without a payload: each is announced, and no call is
made. -/
theorem announced_without_call :
    (bare.perform obliging {} (.result (.int 5) .none "SIMPLE" (.type .any))).1.calls = [] ∧
      (bare.perform obliging {} (.result (.int 5) .none "SIMPLE" (.type .any))).1.announced = 1 ∧
      (shop.perform obliging {} (.signal "Order" (.str "order-1") .none "label"
        (.octets .fixed []))).1.calls = [] ∧
      (shop.perform obliging {} (.signal "Order" (.str "order-1") .none "label"
        (.octets .fixed []))).1.announced = 1 :=
  ⟨by decide +kernel, by decide +kernel, rfl, rfl⟩

end Client
end WorkflowClient
