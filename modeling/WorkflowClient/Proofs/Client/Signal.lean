import WorkflowClient.Proofs.Client.Calls
import WorkflowClient.Proofs.Client.Endings
import WorkflowClient.Proofs.Message.Requests
import WorkflowClient.Proofs.Payload.Accepts
import WorkflowClient.Proofs.Payload.RoundTrip
import WorkflowClient.Proofs.Registry
import WorkflowClient.Samples.Orders

/-! Signals on a declared channel: what is refused, what is sent, and what the receiver reads. -/
namespace WorkflowClient.Client
open Message
open Diagnostic (tick)

variable {c : Client} {type channel : String} {t : WorkflowType} {d : Descriptor}

/-- The request that carries a payload on a channel. -/
def carrying (workflowId : String) (runId : Option String) (channel : String)
    (payload : Option String) : SignalRequest :=
  { workflowId, runId, channel, value := payload }

/-- What is logged before a signal is sent. -/
def signalling (workflowId channel : String) : Log.Record :=
  ⟨.client, Log.debug, "Signalling workflow " ++ tick workflowId ++ " on " ++ tick channel⟩

theorem signalRequest_eq (ht : c.registry.get? type = some t)
    (hd : t.channelType? channel = some d) (workflowId : String) (runId : Option String)
    (v : Value) :
    c.signalRequest type (.str workflowId) (ofText? runId) channel v =
      match d.accepts c.catalog v with
      | .error x => Run.fail (.raised x)
      | .ok false => Run.reject (.signalMismatch channel d.name v.className)
      | .ok true =>
        ⟨((Payload.encode c.catalog v).map (carrying workflowId runId channel)).mapError .encoding,
          [], [signalling workflowId channel]⟩ := by
  have hchecked (raw : Option String) :
      SignalRequest.shape.ofMembers [("workflow_id", .str workflowId),
        ("workflow_run_id", ofText? runId), ("signal_channel_name", .str channel),
        ("signal_value", ofText? raw)] =
      .ok (carrying workflowId runId channel raw) :=
    SignalRequest.ofMembers_eq_ok.mpr
      ⟨rfl, nullable_text_ofText? runId, rfl, nullable_text_ofText? raw⟩
  unfold signalRequest
  rw [ht]
  dsimp only
  rw [hd]
  dsimp only
  cases d.accepts c.catalog v with
  | error x => rfl
  | ok accepted =>
    cases accepted with
    | false => rfl
    | true =>
      cases he : Payload.encode c.catalog v with
      | error e =>
        simp only [Run.encode, he]
        rfl
      | ok raw =>
        simp only [Run.encode, he]
        simp only [hchecked]
        rfl

theorem signal_eq (ht : c.registry.get? type = some t) (hd : t.channelType? channel = some d)
    (service : Service) (workflowId : String) (runId : Option String) (v : Value) :
    c.signal service type (.str workflowId) (ofText? runId) channel v =
      match d.accepts c.catalog v with
      | .error x => Run.fail (.raised x)
      | .ok false => Run.reject (.signalMismatch channel d.name v.className)
      | .ok true => match Payload.encode c.catalog v with
        | .error e => ⟨.error (.encoding e), [], [signalling workflowId channel]⟩
        | .ok payload =>
          let request := carrying workflowId runId channel payload
          let reply := service.signal request
          ⟨reply.result.mapError .service, [.signal request],
            signalling workflowId channel :: reply.log⟩ := by
  rw [signal, signalRequest_eq ht hd]
  cases d.accepts c.catalog v with
  | error x => rfl
  | ok accepted =>
    cases accepted with
    | false => rfl
    | true => cases Payload.encode c.catalog v <;> rfl

theorem signal_calls (ht : c.registry.get? type = some t) (hd : t.channelType? channel = some d)
    (service : Service) (workflowId : String) (runId : Option String) {v : Value}
    {raw : Option String} (ha : d.accepts c.catalog v = .ok true)
    (hraw : Payload.encode c.catalog v = .ok raw) :
    (c.signal service type (.str workflowId) (ofText? runId) channel v).calls =
      [.signal (carrying workflowId runId channel raw)] := by
  rw [signal_eq ht hd, ha, hraw]

/-- A value that the channel takes and that has no payload ends the signal before its call. -/
theorem signal_unencoded (ht : c.registry.get? type = some t)
    (hd : t.channelType? channel = some d) (service : Service) (workflowId : String)
    (runId : Option String) {v : Value} {e : Payload.EncodeFailure}
    (ha : d.accepts c.catalog v = .ok true) (he : Payload.encode c.catalog v = .error e) :
    (c.signal service type (.str workflowId) (ofText? runId) channel v).Unencoded c.catalog v e := by
  rw [signal_eq ht hd, ha, he]
  exact ⟨rfl, rfl, Payload.explains_of_encode he⟩

def reasons : Descriptor := ⟨1, .named "CancelReason"⟩

def labels : Descriptor := ⟨2, .primitive .bytes⟩

/-- Orders take a reason on one channel, and octets on another. -/
def order : WorkflowType where
  toDeclaration := { name := "Order", channels := [⟨"cancel", reasons⟩, ⟨"label", labels⟩] }
  named := by decide
  states_nodup := by decide
  channels_nodup := by decide
  attributes_nodup := by decide

def shop : Client := { catalog := Samples.Orders.catalog, registry := ⟨[order], by decide⟩ }

theorem shop_get? : shop.registry.get? "Order" = some order := rfl

theorem order_cancel : order.channelType? "cancel" = some reasons := rfl

def reason : List (String × Value) := [("code", .str "late"), ("detail", .none)]

/-- A reason of a class that extends the one of the channel. -/
def urgent : Value := .record .model "UrgentCancel" (reason ++ [("level", .int 2)])

theorem inhabits_reason :
    Inhabits Samples.Orders.catalog (.named "CancelReason")
      (.record .model "CancelReason" reason) := by
  refine .record rfl (by decide) (by decide) rfl ?_
  simp only [Samples.Orders.cancelReason, reason, List.zip_cons_cons, List.zip_nil_right,
    List.forall_mem_cons]
  exact ⟨.plain (.str "late"), .absent (by simp), by simp⟩

/-- What an urgent reason is written as. -/
def urgentData : Json := .object [("code", .str "late"), ("detail", .null), ("level", .int 2)]

theorem legible_urgentData : Json.Legible urgentData := by
  refine .object ?_
  simp only [List.forall_mem_cons]
  exact ⟨.str "late", .null, .int (by decide +kernel), by simp⟩

theorem signal_of_unregistered (h : ∀ t ∈ c.registry.types, t.name ≠ type) (service : Service)
    (workflowId runId : Value) (channel : String) (v : Value) :
    c.signal service type workflowId runId channel v = Run.reject (.typeNotRegistered type) := by
  rw [signal, signalRequest, Registry.get?_eq_none_iff.mpr h]
  rfl

theorem signal_of_undeclared (ht : c.registry.get? type = some t)
    (h : ∀ d, ⟨channel, d⟩ ∉ t.channels) (service : Service) (workflowId runId v : Value) :
    c.signal service type workflowId runId channel v =
      Run.reject (.channelNotRegistered type channel) := by
  rw [signal, signalRequest, ht]
  dsimp only
  rw [t.channelType?_eq_none_iff.mpr h]
  rfl

/-- A signal from its arguments to its result, by the first of the checks that it does not pass: the
type is registered, it declares the channel, the channel accepts the value as it stands, unless a
check of the application raises something, and the value has a payload. What passes them all is sent
in one request, with the payload of the value that was given, and ends as the service takes it. -/
theorem signal_outcomes (c : Client) (service : Service) (type channel workflowId : String)
    (runId : Option String) (v : Value) :
    let run := c.signal service type (.str workflowId) (ofText? runId) channel v
    ((∀ t ∈ c.registry.types, t.name ≠ type) → run.Refused (.typeNotRegistered type)) ∧
    ∀ t ∈ c.registry.types, t.name = type →
      ((∀ d, ⟨channel, d⟩ ∉ t.channels) → run.Refused (.channelNotRegistered type channel)) ∧
      ∀ d, ⟨channel, d⟩ ∈ t.channels →
        (∀ x, d.accepts c.catalog v = .error x → run = ⟨.error (.raised x), [], []⟩) ∧
        (d.accepts c.catalog v = .ok false →
          run.Refused (.signalMismatch channel d.name v.className)) ∧
        (d.accepts c.catalog v = .ok true →
          (∀ e, Payload.encode c.catalog v = .error e → run.Unencoded c.catalog v e) ∧
          ∀ payload, Payload.encode c.catalog v = .ok payload →
            let request := carrying workflowId runId channel payload
            (payload = none ↔ v = .none) ∧ run.calls = [.signal request] ∧
              run.result = (service.signal request).result.mapError .service) := by
  refine ⟨fun h => ?_, fun t hmem hname => ⟨fun h => ?_, fun d hd =>
    ⟨fun x ha => ?_, fun ha => ?_, fun ha => ⟨fun e he => ?_, fun payload hp => ?_⟩⟩⟩⟩
  · rw [signal_of_unregistered h]
    exact Run.refused_reject (Diagnostic.shows_typeNotRegistered type)
  · rw [signal_of_undeclared (Registry.get?_eq_some_iff.mpr ⟨hmem, hname⟩) h]
    exact Run.refused_reject (Diagnostic.shows_channelNotRegistered type channel)
  · have ht := Registry.get?_eq_some_iff.mpr ⟨hmem, hname⟩
    rw [signal_eq ht (t.channelType?_eq_some_iff.mpr hd), ha]
    rfl
  · have ht := Registry.get?_eq_some_iff.mpr ⟨hmem, hname⟩
    rw [signal_eq ht (t.channelType?_eq_some_iff.mpr hd), ha]
    exact Run.refused_reject (Diagnostic.shows_signalMismatch ..)
  · have ht := Registry.get?_eq_some_iff.mpr ⟨hmem, hname⟩
    exact signal_unencoded ht (t.channelType?_eq_some_iff.mpr hd) service workflowId runId ha he
  · have ht := Registry.get?_eq_some_iff.mpr ⟨hmem, hname⟩
    rw [signal_eq ht (t.channelType?_eq_some_iff.mpr hd), ha, hp]
    refine ⟨?_, rfl, rfl⟩
    rw [← Payload.encode_eq_none_iff (Γ := c.catalog), hp, Except.ok.injEq]

def notes : Descriptor := ⟨1, .primitive .str⟩

def holds : Descriptor := ⟨2, .named "Holder"⟩

/-- Parcels take notes on one channel, and models that hold anything on another. -/
def parcel : WorkflowType where
  toDeclaration := { name := "Parcel", channels := [⟨"note", notes⟩, ⟨"hold", holds⟩] }
  named := by decide
  states_nodup := by decide
  channels_nodup := by decide
  attributes_nodup := by decide

def hub : Client := { catalog := Samples.Orders.catalog, registry := ⟨[parcel], by decide⟩ }

theorem signal_outcomes_note :
    parcel ∈ hub.registry.types ∧ ⟨"note", notes⟩ ∈ parcel.channels ∧
      (hub.signal obliging "Parcel" (.str "parcel-1") (ofText? none) "note" (.str "late")).calls =
        [.signal (carrying "parcel-1" none "note" (some "\"late\""))] := by
  have hmem : parcel ∈ hub.registry.types := List.mem_singleton_self _
  have hd : ⟨"note", notes⟩ ∈ parcel.channels := List.mem_cons_self
  have h := (signal_outcomes hub obliging "Parcel" "note" "parcel-1" none (.str "late")).2
    parcel hmem rfl
  exact ⟨hmem, hd, (((h.2 _ hd).2.2 rfl).2 _ (by decide +kernel)).2.1⟩

/-- A value that is accepted and cannot be encoded, and is refused by none of the codec's errors. -/
theorem signal_holder_fails :
    holds.accepts hub.catalog Payload.holder = .ok true ∧
      (hub.signal obliging "Parcel" (.str "parcel-1") .none "hold" Payload.holder).result =
        .error (.encoding (.raised Payload.setAsKey)) ∧
      (Payload.EncodeFailure.raised Payload.setAsKey).diagnostic? = none :=
  ⟨rfl, rfl, rfl⟩

end WorkflowClient.Client
