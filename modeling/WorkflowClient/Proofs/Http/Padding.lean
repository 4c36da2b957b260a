import WorkflowClient.Proofs.Http.Answers
import WorkflowClient.Proofs.Http.Lifecycle
import WorkflowClient.Proofs.Message.Padding

/-! A client does the same on answers that differ in members it does not know, as long as they can be
read. -/
namespace WorkflowClient
open Message

/-- The class of the record that an operation reads from the body of the answer. Of the answer to a
signal nothing is read. -/
def Operation.answerKind? : Operation → Option Message.Kind
  | .start .. => some .startResponse
  | .result .. => some .getResponse
  | .signal .. => none
  | .reset .. => some .resetResponse
  | .query .. => some .attributesResponse

namespace Http

/-- Both bodies can be read, and the second is the first with padding in its data. -/
def PaddedBody (k : Message.Kind) (body body' : List UInt8) : Prop :=
  ∃ j j', data body = .ok j ∧ data body' = .ok j' ∧ k.Padded j j'

/-- The same event, but for padding in the body of an answer. -/
inductive Event.Padded : Event Operation → Event Operation → Prop
  | same (e : Event Operation) : e.Padded e
  | response {status : Int} {body body' : List UInt8} {o : Operation}
      (h : ∀ k ∈ o.answerKind?, PaddedBody k body body') :
      Event.Padded (.perform (.response status body) o) (.perform (.response status body') o)

section
variable {h : Connection} {status : Int} {body body' : List UInt8}

theorem received_padded {k : Message.Kind} (hb : PaddedBody k body body') :
    received k.shape body = received k.shape body' := by
  obtain ⟨j, j', hj, hj', hpadded⟩ := hb
  unfold received
  rw [hj, hj']
  exact congrArg (Except.mapError ServiceFailure.invalid) (Message.Kind.ofValue_padded hpadded)

/-- A call comes to the same over two bodies that come to the same when they are read. -/
theorem exchange_bind_congr {α : Type} {read : List UInt8 → Except ServiceFailure α}
    (hread : read body = read body') (c : Call) :
    (exchange h (.response status body) c).1.bind read =
      (exchange h (.response status body') c).1.bind read := by
  unfold exchange
  cases c.wire.print? Json.compact with
  | none => rfl
  | some text =>
    cases h.closed with
    | true => rfl
    | false =>
      simp only [Bool.false_eq_true, if_false, accepted_bind, Delivery.outcome, hread]

theorem replyWith_padded {k : Message.Kind} (hb : PaddedBody k body body') (c : Call) :
    replyWith k.shape h (.response status body) c =
      replyWith k.shape h (.response status body') c :=
  congrArg (Reply.mk · (log c)) (exchange_bind_congr (received_padded hb) c)

/-- Of the answer to a signal only the status counts. -/
theorem service_signal (h : Connection) (status : Int) (body body' : List UInt8) :
    (service h (.response status body)).signal = (service h (.response status body')).signal := by
  have hmap : ∀ x : Except ServiceFailure (List UInt8),
      x.map (fun _ => ()) = x.bind fun _ => .ok () := fun x => by cases x <;> rfl
  funext r
  simp only [service, hmap]
  refine congrArg (Reply.mk · (log (.signal r))) ?_
  apply exchange_bind_congr
  rfl

end

end Http

namespace Session
variable {s : Session} {ds : Descriptors}

/-- What a run leaves of the connection does not depend on the answers. -/
theorem carried_response {α : Type} (s : Session) (status : Int) (body body' : List UInt8)
    (r : Run α) : s.carried (.response status body) r = s.carried (.response status body') r := by
  have hstep : (fun h c => (Http.exchange h (.response status body) c).2) =
      fun h c => (Http.exchange h (.response status body') c).2 := by
    funext h c
    unfold Http.exchange
    cases c.wire.print? Json.compact with
    | none => rfl
    | some text => cases h.closed <;> rfl
  rw [carried, carried, hstep]

/-- An operation goes the same way over a padded answer. -/
theorem perform_padded {status : Int} {body body' : List UInt8} {o : Operation}
    (h : ∀ k ∈ o.answerKind?, Http.PaddedBody k body body') :
    s.perform (.response status body) ds o = s.perform (.response status body') ds o := by
  unfold Session.perform
  -- An operation makes one kind of call, so of the service it matters only how that one is answered.
  cases o with
  | start =>
    have hstart : (Http.service s.connection (.response status body)).start =
        (Http.service s.connection (.response status body')).start :=
      funext fun _ => Http.replyWith_padded (h .startResponse rfl) _
    simp only [Client.perform, Client.start, hstart]
  | result =>
    have hwait : (Http.service s.connection (.response status body)).getWithWait =
        (Http.service s.connection (.response status body')).getWithWait :=
      funext fun _ => Http.replyWith_padded (h .getResponse rfl) _
    simp only [Client.perform, Client.result, Client.outputs, hwait]
  | signal => simp only [Client.perform, Client.signal, Http.service_signal _ status body body']
  | reset =>
    have hreset : (Http.service s.connection (.response status body)).reset =
        (Http.service s.connection (.response status body')).reset :=
      funext fun _ => Http.replyWith_padded (h .resetResponse rfl) _
    simp only [Client.perform, Client.reset, hreset]
  | query =>
    have hquery : (Http.service s.connection (.response status body)).queryAttributes =
        (Http.service s.connection (.response status body')).queryAttributes :=
      funext fun _ => Http.replyWith_padded (h .attributesResponse rfl) _
    simp only [Client.perform, Client.query, hquery]

/-- How the operation of an event goes, and what it sends. -/
def went (s : Session × Descriptors) : Http.Event Operation → List (Run Value × List Http.Sent)
  | .perform d o =>
    let run := (s.1.perform d s.2 o).1
    [(run, s.1.sent run)]
  | .close | .leave => []

/-- How the operations of a run go, each at its point of it. -/
def history (s : Session × Descriptors) :
    List (Http.Event Operation) → List (Run Value × List Http.Sent)
  | [] => []
  | e :: rest => went s e ++ history (apply s e) rest

theorem step_padded {s : Session × Descriptors} {e e' : Http.Event Operation} (h : e.Padded e') :
    went s e = went s e' ∧ apply s e = apply s e' := by
  cases h with
  | same => exact ⟨rfl, rfl⟩
  | response h =>
    unfold went apply
    dsimp only
    rw [perform_padded h, carried_response]
    exact ⟨rfl, rfl⟩

/-- A run goes the same way over padded answers. -/
theorem history_padded {es es' : List (Http.Event Operation)}
    (h : List.Forall₂ Http.Event.Padded es es') (s : Session × Descriptors) :
    history s es = history s es' ∧ after s es = after s es' := by
  induction h generalizing s with
  | nil => exact ⟨rfl, rfl⟩
  | @cons e e' rest rest' he _ ih =>
    obtain ⟨hwent, happly⟩ := step_padded (s := s) he
    obtain ⟨hhistory, hafter⟩ := ih (apply s e')
    have hcons : after s (e :: rest) = after (apply s e) rest := rfl
    have hcons' : after s (e' :: rest') = after (apply s e') rest' := rfl
    unfold history
    rw [hwent, happly, hhistory, hcons, happly, hafter, hcons']
    exact ⟨rfl, rfl⟩

/-- Members that a class does not know do not matter, and neither does the order of members. Data and
padded data make the same record, or are refused for the same faults. An operation goes the same way
over two answers, one with the other's data padded, and so does a whole run over many: what comes of
each operation is the same, and so are its calls, what it logs and what it sends. -/
theorem padding_does_not_matter :
    (∀ (k : Message.Kind) (j j' : Json), k.Padded j j' →
      k.shape.ofValue (.ofJson j) = k.shape.ofValue (.ofJson j')) ∧
    (∀ (s : Session) (ds : Descriptors) (o : Operation) (status : Int) (body body' : List UInt8),
      (∀ k ∈ o.answerKind?, Http.PaddedBody k body body') →
      s.perform (.response status body) ds o = s.perform (.response status body') ds o) ∧
    ∀ (s : Session × Descriptors) (es es' : List (Http.Event Operation)),
      List.Forall₂ Http.Event.Padded es es' →
      history s es = history s es' ∧ after s es = after s es' :=
  ⟨fun _ _ _ h => Message.Kind.ofValue_padded h, fun _ _ _ _ _ _ h => perform_padded h,
    fun s _ _ h => history_padded h s⟩

/-- Waits for the end of a run, for all of its outputs. -/
def awaitAll : Operation := .result (.str "order-1") .none "COMPLEX" (.type .any)

/-- A run was ended by one state. -/
def shipped : Json := .object [("results", .array [.object [("completedStateId", .str "ship")]])]

/-- The same with a member ahead, and with one in the output. -/
def shippedAgain : Json :=
  .object [("cursor", .null),
    ("results", .array [.object [("retried", .bool true), ("completedStateId", .str "ship")]])]

/-- A run has ended without outputs. -/
def ended : Json := .object [("workflowRunId", .str "run-1")]

theorem padded_shippedAgain : Message.Kind.Padded .getResponse shipped shippedAgain := by
  have houtput : Message.Padded (Message.Kind.names .stateOutput)
      (Message.Kind.AlikeWithin .stateOutput) (.object [("completedStateId", .str "ship")])
      (.object [("retried", .bool true), ("completedStateId", .str "ship")]) :=
    .object (.cons ⟨rfl, fun _ => rfl⟩ .nil) (by decide) (.swap ..) (by decide)
  have hresults : List.Forall₂ (Paired (Message.Kind.Alike .getResponse))
      [("results", .array [.object [("completedStateId", .str "ship")]])]
      [("results", .array [.object [("retried", .bool true), ("completedStateId", .str "ship")]])] :=
    .cons ⟨rfl, .records rfl (.cons houtput .nil)⟩ .nil
  have hextra : ∀ m ∈ [("cursor", Json.null)], m.1 ∉ Message.Kind.names .getResponse := by decide
  exact .object hresults hextra (.swap ..) (by decide)

theorem padded_endedAt (revision : Int) :
    Message.Kind.Padded .getResponse ended (Http.endedAt revision) := by
  have hkept : List.Forall₂ (Paired (Message.Kind.Alike .getResponse))
      [("workflowRunId", .str "run-1")] [("workflowRunId", .str "run-1")] :=
    .cons ⟨rfl, .equal _⟩ .nil
  have hunknown : "revision" ∉ Message.Kind.names .getResponse := by decide
  have hextra : ∀ m ∈ [("revision", Json.int revision)],
      m.1 ∉ Message.Kind.names .getResponse := by
    intro m hm
    rw [List.mem_singleton.mp hm]
    exact hunknown
  exact .object hkept hextra (.swap ..) (by simp)

theorem data_ended : Http.data (Http.bodyOf ended) = .ok ended := by
  have hchars : ended.chars Json.compact =
      '\x7b' :: '"' :: 'w' :: 'o' :: "rkflowRunId\":\"run-1\"\x7d".toList := by decide +kernel
  have hlegible : Json.Legible ended := .object (by simp [Json.Legible.str])
  exact Http.data_bodyOf_legible hchars (by decide +kernel) hlegible rfl

theorem padding_does_not_matter_ended :
    Message.Kind.Padded .getResponse shipped shippedAgain ∧
      GetResponse.shape.ofValue (.ofJson shipped) =
        GetResponse.shape.ofValue (.ofJson shippedAgain) ∧
      (∀ k ∈ awaitAll.answerKind?,
        Http.PaddedBody k (Http.bodyOf ended) (Http.bodyOf (Http.endedAt 7))) ∧
      bare.perform (.response 200 (Http.bodyOf ended)) {} awaitAll =
        bare.perform (.response 200 (Http.bodyOf (Http.endedAt 7))) {} awaitAll := by
  have hwritable : Number.writable 7 = true := by decide +kernel
  have hlegible : Json.Legible (Http.endedAt 7) :=
    .object (by simp [Json.Legible.str, Json.Legible.int hwritable])
  have hread : Http.data (Http.bodyOf (Http.endedAt 7)) = .ok (Http.endedAt 7) :=
    Http.data_bodyOf_legible (Http.chars_endedAt 7) (Http.ascii_endedAt 7) hlegible rfl
  have hbody : ∀ k ∈ awaitAll.answerKind?,
      Http.PaddedBody k (Http.bodyOf ended) (Http.bodyOf (Http.endedAt 7)) := by
    intro k hk
    obtain rfl : .getResponse = k := Option.some.inj hk
    exact ⟨ended, Http.endedAt 7, data_ended, hread, padded_endedAt 7⟩
  exact ⟨padded_shippedAgain, padding_does_not_matter.1 .getResponse _ _ padded_shippedAgain, hbody,
    padding_does_not_matter.2.1 _ _ _ _ _ _ hbody⟩

theorem result_awaitAll (body : List UInt8) :
    (bare.perform (.response 200 body) {} awaitAll).1.result =
      ((Http.received GetResponse.shape body).mapError .service).map fun r =>
        .sequence .list ((r.results.getD []).map StateOutput.shape.toValue) := by
  have hplan : (bare.client.plan {} awaitAll).result = .ok ⟨.getWithWait ⟨"order-1", none, true⟩,
      fun r => bare.client.shaped {} (.str "order-1") "COMPLEX" (.type .any) (r.results.getD [])⟩ :=
    rfl
  have hanswer : ((Http.service bare.connection (.response 200 body)).answer
      (.getWithWait ⟨"order-1", none, true⟩)).result = Http.received GetResponse.shape body := rfl
  unfold Session.perform
  rw [Client.perform_eq_carryOut, Run.result_carryOut, hplan]
  dsimp only [Except.bind]
  rw [hanswer]
  cases Http.received GetResponse.shape body <;> rfl

/-- The least revision that is too long. -/
def longRevision : Nat := 10 ^ Number.digitLimit

theorem data_longRevision :
    Http.data (Http.bodyOf (Http.endedAt longRevision)) = .error (.bodyInteger 4301) := by
  have hlength : (Number.natText longRevision).length = Number.digitLimit + 1 := by
    unfold longRevision
    exact Number.length_natText_pow (by decide)
  have hgreat : 10 ^ Number.digitLimit ≤ longRevision := by
    unfold longRevision
    exact Nat.le_refl _
  rw [Http.data_endedAt hgreat, hlength]
  rfl

/-- A revision of 4301 digits in the answer matters, though the class of such answers does not know
revisions: without it the client has the outputs, and with it a failure. -/
theorem long_padding_matters :
    Message.Kind.Padded .getResponse ended (Http.endedAt longRevision) ∧
      (bare.perform (.response 200 (Http.bodyOf ended)) {} awaitAll).1.result =
        .ok (.sequence .list []) ∧
      (bare.perform (.response 200 (Http.bodyOf (Http.endedAt longRevision))) {}
        awaitAll).1.result = .error (.service (.bodyInteger 4301)) := by
  refine ⟨padded_endedAt _, ?_, ?_⟩
  · rw [result_awaitAll, Http.received, data_ended]
    rfl
  · rw [result_awaitAll, Http.received, data_longRevision]
    rfl

end Session
end WorkflowClient
