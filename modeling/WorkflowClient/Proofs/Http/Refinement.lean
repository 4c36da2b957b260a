import WorkflowClient.Client.Session
import WorkflowClient.Http
import WorkflowClient.Proofs.Client.Calls
import WorkflowClient.Proofs.Message.RoundTrip

/-! The body of a call: it has a text if its integers have, and the text says what the body does. -/
namespace WorkflowClient.Call
open Message

/-- The integers in a request can be written. -/
def writable : Call → Bool
  | .start r => Number.writable r.timeoutSeconds
  | .reset r => (r.historyEventId.all Number.writable) && (r.decisionOffset.all Number.writable)
  | .getWithWait _ | .signal _ | .queryAttributes _ => true

theorem exists_onWire {c : Call} (h : c.writable = true) : ∃ v, OnWire v ∧ wireOf v = c.wire := by
  cases c with
  | start r => exact ⟨_, (StartRequest.carries h).onWire, rfl⟩
  | getWithWait r => exact ⟨_, r.carries.onWire, rfl⟩
  | signal r => exact ⟨_, r.carries.onWire, rfl⟩
  | reset r =>
    simp only [writable, Bool.and_eq_true, Option.all_eq_true] at h
    exact ⟨_, (ResetRequest.carries h.1 h.2).onWire, rfl⟩
  | queryAttributes r => exact ⟨_, r.carries.onWire, rfl⟩

/-- The body has a text, and the text says what the body does. -/
theorem exists_body {c : Call} (h : c.writable = true) :
    ∃ body, c.wire.print? Json.compact = some body ∧ Payload.loads (some body) = .ok c.wire := by
  obtain ⟨v, hv, hw⟩ := exists_onWire h
  rw [← hw]
  exact ⟨_, hv.legible.print_eq, Payload.loads_chars hv.legible hv.neat.settle⟩

end WorkflowClient.Call

/-! A client over HTTP does what it would do on a service in memory that answers as the network
does. -/
namespace WorkflowClient
open Message

namespace Http

/-- What a call comes to, by what the network does with its request. -/
def Delivery.outcome {α : Type} (read : List UInt8 → Except ServiceFailure α) :
    Delivery → Except ServiceFailure α
  | .failed reason message => .error (.connection reason message)
  | .response status body =>
    if 200 ≤ status ∧ status < 300 then read body else .error (.status status)

/-- The service in memory that answers every call as the network does. -/
def Delivery.stub (d : Delivery) : Service where
  start _ := ⟨d.outcome (received StartResponse.shape), []⟩
  getWithWait _ := ⟨d.outcome (received GetResponse.shape), []⟩
  signal _ := ⟨d.outcome fun _ => .ok (), []⟩
  reset _ := ⟨d.outcome (received ResetResponse.shape), []⟩
  queryAttributes _ := ⟨d.outcome (received AttributesResponse.shape), []⟩

variable {h : Connection} {c : Call} {body : String}

theorem accepted_bind {α : Type} (d : Delivery) (read : List UInt8 → Except ServiceFailure α) :
    (accepted d).bind read = d.outcome read := by
  cases d with
  | failed reason message => rfl
  | response status body =>
    unfold accepted Delivery.outcome
    dsimp only
    split <;> rfl

theorem exchange_eq (ho : h.closed = false) (hb : c.wire.print? Json.compact = some body)
    (d : Delivery) : exchange h d c = (accepted d, { h with phase := .opened }) := by
  simp [exchange, hb, ho]

theorem sent_eq (ho : h.closed = false) (hb : c.wire.print? Json.compact = some body) :
    sent h c = [{ url := Address.joined h.address (path c), body }] := by
  simp [sent, hb, ho]

/-- With a body that can be written and a connection that is open, only the network counts. -/
theorem answer_service (ho : h.closed = false) (hb : c.wire.print? Json.compact = some body)
    (d : Delivery) : ((service h d).answer c).result = (d.stub.answer c).result := by
  cases c with
  | signal r =>
    have hx := exchange_eq ho hb d
    simp only [Service.answer, service, Delivery.stub, hx]
    rw [← accepted_bind]
    cases accepted d <;> rfl
  | _ =>
    have hx := exchange_eq ho hb d
    simp only [Service.answer, service, Delivery.stub, replyWith, hx]
    exact accepted_bind d _

end Http

namespace Operation

/-- Where the request of an operation goes, below the address of the service. -/
def path : Operation → String
  | .start .. => "/api/v1/workflow/start"
  | .result .. => "/api/v1/workflow/getWithWait"
  | .signal .. => "/api/v1/workflow/signal"
  | .reset .. => "/api/v1/workflow/reset"
  | .query .. => "/api/v1/workflow/queryattributes/get"

/-- The integers that an operation sends as numbers, and the decimals that become such integers, can
be written. -/
def numbersWritable (c : Client) : Operation → Bool
  | .start _ _ _ options _ =>
    Number.writable ((options.map (·.workflowTimeout)).getD c.options.workflowTimeout)
  | .reset _ _ point _ _ => point.wholesWritable
  | .result .. | .signal .. | .query .. => true

end Operation

namespace Client
variable {c : Client} {s : Descriptors} {o : Operation} {p : Pending (Run Value × Descriptors)}

theorem timeout_of_startRequest {type state : String} {workflowId input : Value}
    {options : Option StartOptions} {r : StartRequest}
    (h : (c.startRequest type state workflowId options input).result = .ok r) :
    r.timeoutSeconds = (options.map (·.workflowTimeout)).getD c.options.workflowTimeout := by
  unfold startRequest at h
  dsimp only at h
  split at h
  · obtain ⟨payload, -, h⟩ := Run.result_bind_eq_ok.mp h
    obtain ⟨request, hr, h⟩ := Run.result_bind_eq_ok.mp h
    obtain ⟨id, -, h⟩ := Run.result_bind_eq_ok.mp h
    obtain ⟨_, -, h⟩ := Run.result_bind_eq_ok.mp h
    cases h
    have ht := (StartRequest.ofMembers_eq_ok.mp (Run.result_checked_eq_ok.mp hr)).2.2.2.1
    cases options <;> exact (Except.ok.inj ht).symm
  · cases h

theorem point_of_resetRequest {workflowId runId point reason skip : Value} {r : ResetRequest}
    (h : (resetRequest workflowId runId point reason skip).result = .ok r) :
    ∃ p id run why skips, ResetPoint.ofValue point = .ok p ∧ r = p.request id run why skips := by
  unfold resetRequest at h
  obtain ⟨p, hp, h⟩ := Run.result_bind_eq_ok.mp h
  obtain ⟨request, hr, h⟩ := Run.result_bind_eq_ok.mp h
  obtain ⟨id, -, h⟩ := Run.result_bind_eq_ok.mp h
  obtain ⟨_, -, h⟩ := Run.result_bind_eq_ok.mp h
  cases h
  obtain ⟨id, run, why, skips, -, -, -, -, rfl⟩ :=
    ResetRequest.ofMembers_eq_ok.mp (Run.result_checked_eq_ok.mp hr)
  exact ⟨p, id, run, why, skips, Run.result_checked_eq_ok.mp hp, rfl⟩

theorem writable_of_plan (h : (c.plan s o).result = .ok p) (ho : o.numbersWritable c = true) :
    p.call.writable = true := by
  cases o with
  | start type state workflowId options input =>
    obtain ⟨r, hr, rfl⟩ := Run.result_bind_pure h
    rw [Operation.numbersWritable, ← timeout_of_startRequest hr] at ho
    exact ho
  | result =>
    obtain ⟨_, -, rfl⟩ := Run.result_bind_pure h
    rfl
  | signal =>
    obtain ⟨_, -, rfl⟩ := Run.result_bind_pure h
    rfl
  | reset workflowId runId point reason skip =>
    obtain ⟨r, hr, rfl⟩ := Run.result_bind_pure h
    obtain ⟨q, id, run, why, skips, hq, rfl⟩ := point_of_resetRequest hr
    have hown := ResetPoint.writable_of_ofValue hq ho
    cases q with
    | historyEvent id =>
      simpa [Call.writable, ResetPoint.request, ResetPoint.ownField, Value.wholesWritable]
        using hown
    | lastCompleted offset =>
      simpa [Call.writable, ResetPoint.request, ResetPoint.ownField, Value.wholesWritable]
        using hown
    | badBinary checksum => rfl
    | completedTime earliest => rfl
  | query =>
    obtain ⟨_, -, rfl⟩ := Run.result_bind_pure h
    rfl

theorem path_of_plan (h : (c.plan s o).result = .ok p) : Http.path p.call = o.path := by
  cases o <;>
  · obtain ⟨_, -, rfl⟩ := Run.result_bind_pure h
    rfl

end Client

namespace Session
variable (s : Session) (d : Http.Delivery) (ds : Descriptors) (o : Operation)

/-- Over an open connection an operation has the outcome that it has on the service in memory. It
sends a request exactly when it makes a call there: one POST to its path, whose body reads as the
body of that call. -/
theorem perform_eq_stub (hopen : s.connection.closed = false)
    (hn : o.numbersWritable s.client = true) :
    (s.perform d ds o).1.result = (s.client.perform d.stub ds o).1.result ∧
      (s.perform d ds o).2 = (s.client.perform d.stub ds o).2 ∧
      ((s.client.perform d.stub ds o).1.calls = [] ∧ s.sent (s.perform d ds o).1 = [] ∨
        ∃ call body, (s.client.perform d.stub ds o).1.calls = [call] ∧
          s.sent (s.perform d ds o).1 =
            [{ method := "POST", url := Http.Address.joined s.connection.address o.path,
               contentType := "application/json", body }] ∧
          Payload.loads (some body) = .ok call.wire) := by
  unfold Session.perform
  unfold Session.sent
  rw [Client.calls_perform, Client.calls_perform, Client.perform_eq_carryOut,
    Client.perform_eq_carryOut]
  unfold Run.carryOut
  cases hp : (s.client.plan ds o).result with
  | error e => exact ⟨rfl, rfl, .inl ⟨rfl, rfl⟩⟩
  | ok p =>
    obtain ⟨body, hb, hread⟩ := Call.exists_body (Client.writable_of_plan hp hn)
    dsimp only
    rw [Http.answer_service hopen hb d]
    refine ⟨?_, ?_, .inr ⟨p.call, body, rfl, ?_, hread⟩⟩
    · cases (d.stub.answer p.call).result <;> rfl
    · cases (d.stub.answer p.call).result <;> rfl
    · simp [Http.sent_eq hopen hb, Client.path_of_plan hp]

/-- A session of a client that knows no workflow type. -/
def bare : Session := .own Client.bare

/-- Back to an event whose number is a decimal. -/
def resetTo (d : Number.Decimal) : Operation :=
  .reset (.str "order-1") .none
    (.dict [(.str "resetType", .str "HistoryEventId"), (.str "historyEventId", .decimal d)])
    (.str "") (.bool false)

theorem perform_eq_stub_bare :
    (resetTo (.finite false 1 3)).numbersWritable Client.bare = true ∧
      (bare.perform (.response 503 []) {} (resetTo (.finite false 1 3))).1.result =
        (Client.bare.perform (Http.Delivery.response 503 []).stub {}
          (resetTo (.finite false 1 3))).1.result := by
  have hn : (resetTo (.finite false 1 3)).numbersWritable Client.bare = true := by decide +kernel
  exact ⟨hn, (perform_eq_stub bare (.response 503 []) {} _ rfl hn).1⟩

/-- A whole decimal has few digits, but the integer that it is read as may have too many: the
service in memory takes the call, and over HTTP nothing goes out. -/
theorem resetTo_unwritable :
    let o := resetTo (.finite false 1 5000)
    let d : Http.Delivery := .response 200 (Text.toUtf8 "\x7b\"workflowRunId\":\"run-2\"\x7d")
    (Client.bare.perform d.stub {} o).1.calls.length = 1 ∧
      (Client.bare.perform d.stub {} o).1.result.isOk = true ∧
      bare.sent (bare.perform d {} o).1 = [] ∧ (bare.perform d {} o).1.result.isOk = false := by
  decide +kernel

end Session
end WorkflowClient
