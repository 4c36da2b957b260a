import WorkflowClient.Proofs.Http.Refinement

/-! The life of a connection: whoever opened it closes it for good, and nobody else does. -/
namespace WorkflowClient

namespace Http

/-- What happens to a service, or to a client: an operation, with what the network does in it; a
close; the end of a block that was entered with it. -/
inductive Event (ω : Type)
  | perform (delivery : Delivery) (operation : ω)
  | close
  | leave

def Event.closes {ω : Type} : Event ω → Bool
  | perform .. => false
  | close | leave => true

namespace Connection

def apply (h : Connection) : Event Call → Connection
  | .perform d c => (exchange h d c).2
  | .close | .leave => h.close

def after (h : Connection) (es : List (Event Call)) : Connection := es.foldl apply h

end Connection
end Http

/-- What is settled before anything goes out: the body of the call can be written, or it cannot. -/
def Call.prepared (c : Call) : Except ServiceFailure (Call × String) :=
  match c.wire.print? Json.compact with
  | some body => .ok (c, body)
  | none => .error .unwritable

/-- What is settled on the client's side: its checks give a call with a body, or a failure. -/
def Client.prepared (c : Client) (o : Operation) : Except Failure (Call × String) :=
  ((c.plan {} o).result.map (·.call)).bind fun call => call.prepared.mapError .service

namespace Session

def apply (s : Session × Descriptors) : Http.Event Operation → Session × Descriptors
  | .perform d o =>
    let (run, ds) := s.1.perform d s.2 o
    (s.1.carried d run, ds)
  | .close | .leave => (s.1.close, s.2)

def after (s : Session × Descriptors) (es : List (Http.Event Operation)) : Session × Descriptors :=
  es.foldl apply s

end Session

namespace Http
variable {h : Connection} {c : Call}

/-- How an operation goes. What fails before anything goes out fails in that way at any time. The
rest sends one request, and comes to what the answer comes to; or it finds the connection closed, and
sends none. -/
def Goes {ε α : Type} (fail : ServiceFailure → ε) (h : Connection)
    (prepared : Except ε (Call × String)) (answer result : Except ε α) (sent : List Sent) : Prop :=
  match prepared with
  | .error e => result = .error e ∧ sent = []
  | .ok (call, body) =>
    if h.closed then result = .error (fail .closed) ∧ sent = []
    else result = answer ∧
      sent = [{ method := "POST", url := Address.joined h.address (path call),
                contentType := "application/json", body }]

theorem answer_of_exchange_error {d : Delivery} {e : ServiceFailure}
    (he : (exchange h d c).1 = .error e) : ((service h d).answer c).result = .error e := by
  cases c <;> simp only [Service.answer, service, replyWith, he] <;> rfl

theorem goes_answer (h : Connection) (d : Delivery) (c : Call) :
    Goes id h c.prepared (d.stub.answer c).result ((service h d).answer c).result (sent h c) := by
  unfold Goes Call.prepared
  cases hb : c.wire.print? Json.compact with
  | none =>
    have hx : (exchange h d c).1 = .error .unwritable := by simp [exchange, hb]
    exact ⟨answer_of_exchange_error hx, by simp [sent, hb]⟩
  | some body =>
    dsimp only
    cases hc : h.closed with
    | true =>
      have hx : (exchange h d c).1 = .error .closed := by simp [exchange, hb, hc]
      exact ⟨answer_of_exchange_error hx, by simp [sent, hb, hc]⟩
    | false => exact ⟨answer_service hc hb d, sent_eq hc hb⟩

/-- Whatever is made of the answer in the end. -/
theorem Goes.bind {ε α β : Type} {prepared : Except ServiceFailure (Call × String)}
    {answer result : Except ServiceFailure α} {sent : List Sent}
    (hg : Goes id h prepared answer result sent) (fail : ServiceFailure → ε)
    (next : α → Except ε β) :
    Goes fail h (prepared.mapError fail) ((answer.mapError fail).bind next)
      ((result.mapError fail).bind next) sent := by
  unfold Goes at hg ⊢
  cases prepared with
  | error e => exact ⟨by rw [hg.1]; rfl, hg.2⟩
  | ok post =>
    simp only [Except.mapError] at hg ⊢
    cases hc : h.closed with
    | true =>
      obtain ⟨hresult, hsent⟩ : result = .error .closed ∧ sent = [] := by simpa [hc] using hg
      simp [hresult, hsent, Except.bind]
    | false =>
      obtain ⟨hresult, hsent⟩ := by simpa only [hc, Bool.false_eq_true, if_false] using hg
      simp [hresult, hsent]

namespace Connection

def opened (h : Connection) : Connection := { h with phase := .opened }

/-- The connection goes on as another one, which differs in its phase only, and is closed if it was
closed before or is closed in between. -/
structure GoesOn (h : Connection) (closing : Bool) (t : Connection) : Prop where
  same : t = { h with phase := t.phase }
  closed : t.closed = (h.closed || closing)

theorem GoesOn.owned {t : Connection} {closing : Bool} (h' : h.GoesOn closing t) :
    t.owned = h.owned := by
  rw [h'.same]

theorem GoesOn.trans {t u : Connection} {a b : Bool} (ht : h.GoesOn a t) (hu : t.GoesOn b u) :
    h.GoesOn (a || b) u where
  same := by rw [hu.same, ht.same]
  closed := by rw [hu.closed, ht.closed, Bool.or_assoc]

theorem goesOn_self (h : Connection) : h.GoesOn false h := ⟨rfl, (Bool.or_false _).symm⟩

/-- A request that goes out opens its connection, and nothing else happens to it. -/
theorem exchange_snd (h : Connection) (d : Delivery) (c : Call) :
    (exchange h d c).2 = if (sent h c).isEmpty then h else h.opened := by
  unfold exchange sent
  cases c.wire.print? Json.compact with
  | none => rfl
  | some body => cases h.closed <;> rfl

/-- Requests go out over connections that are not closed. -/
theorem goesOn_opened (hs : (sent h c).isEmpty = false) : h.GoesOn false h.opened := by
  refine ⟨rfl, ?_⟩
  cases hc : h.closed with
  | false => rfl
  | true =>
    exfalso
    unfold sent at hs
    cases hb : c.wire.print? Json.compact <;> simp [hb, hc] at hs

theorem goesOn_exchange (h : Connection) (d : Delivery) (c : Call) :
    h.GoesOn false (exchange h d c).2 := by
  rw [exchange_snd]
  cases hs : (sent h c).isEmpty with
  | true => exact goesOn_self h
  | false => exact goesOn_opened hs

theorem goesOn_close (h : Connection) : h.GoesOn h.owned h.close := by
  unfold close
  cases ho : h.owned with
  | true => exact ⟨by simp [ho], by simp [closed]⟩
  | false => exact goesOn_self h

theorem close_close (h : Connection) : h.close.close = h.close := by
  unfold close
  cases ho : h.owned <;> simp [ho]

theorem goesOn_apply (h : Connection) (e : Event Call) :
    h.GoesOn (h.owned && e.closes) (h.apply e) := by
  cases e with
  | perform d c =>
    rw [Event.closes, Bool.and_false]
    exact goesOn_exchange h d c
  | close | leave =>
    rw [Event.closes, Bool.and_true]
    exact goesOn_close h

/-- A connection is closed once the service that opened it was. -/
theorem goesOn_after (h : Connection) (es : List (Event Call)) :
    h.GoesOn (h.owned && es.any (·.closes)) (h.after es) := by
  induction es generalizing h with
  | nil =>
    rw [List.any_nil, Bool.and_false]
    exact goesOn_self h
  | cons e rest ih =>
    have hstep := goesOn_apply h e
    have hrest := hstep.trans (ih (h.apply e))
    rw [hstep.owned, ← Bool.and_or_distrib_left] at hrest
    exact hrest

/-- The calls of a run open the connection if a request of them goes out. -/
theorem foldl_exchange (d : Delivery) (calls : List Call) (h : Connection) :
    calls.foldl (fun h c => (exchange h d c).2) h =
      if (calls.flatMap (sent h)).isEmpty then h else h.opened := by
  induction calls generalizing h with
  | nil => rfl
  | cons c rest ih =>
    rw [List.foldl_cons, ih, exchange_snd, List.flatMap_cons]
    cases hs : (sent h c).isEmpty with
    | true => simp [List.isEmpty_iff.mp hs]
    | false =>
      obtain ⟨x, xs, hx⟩ := List.exists_cons_of_ne_nil (List.isEmpty_eq_false_iff.mp hs)
      simp [hx, opened]

end Connection
end Http

theorem Run.call_of_pending {α ρ : Type} (r : Run ρ) (call : ρ → Call)
    (next : (q : ρ) → (call q).Answer → α) :
    (do let q ← r; pure (Pending.mk (call q) (next q)) : Run (Pending α)).result.map (·.call) =
      r.result.map call := by
  obtain ⟨_ | q, calls, log⟩ := r <;> rfl

/-- The call of an operation does not depend on the descriptors. -/
theorem Client.call_of_plan (c : Client) (ds ds' : Descriptors) (o : Operation) :
    (c.plan ds o).result.map (·.call) = (c.plan ds' o).result.map (·.call) := by
  cases o <;> exact (Run.call_of_pending ..).trans (Run.call_of_pending ..).symm

theorem Client.prepared_eq (c : Client) (ds : Descriptors) (o : Operation) :
    c.prepared o = ((c.plan ds o).result.map (·.call)).bind fun call =>
      call.prepared.mapError .service := by
  rw [prepared, c.call_of_plan {} ds]

theorem Run.result_carryOut {α : Type} (service : Service) (ds : Descriptors)
    (r : Run (Pending (Run α × Descriptors))) : (r.carryOut service ds).1.result =
      r.result.bind fun p =>
        ((service.answer p.call).result.mapError .service).bind fun a => (p.next a).1.result := by
  unfold carryOut
  cases r.result with
  | error e => rfl
  | ok p =>
    dsimp only [Except.bind]
    cases (service.answer p.call).result <;> rfl

namespace Session

theorem goes_perform (s : Session) (d : Http.Delivery) (ds : Descriptors) (o : Operation) :
    Http.Goes Failure.service s.connection (s.client.prepared o)
      (s.client.perform d.stub ds o).1.result (s.perform d ds o).1.result
      (s.sent (s.perform d ds o).1) := by
  unfold perform sent
  rw [s.client.prepared_eq ds, Client.calls_perform, Client.perform_eq_carryOut,
    Client.perform_eq_carryOut, Run.result_carryOut, Run.result_carryOut]
  cases (s.client.plan ds o).result with
  | error e => exact ⟨rfl, rfl⟩
  | ok p =>
    have hcall := (Http.goes_answer s.connection d p.call).bind Failure.service
      fun a => (p.next a).1.result
    simpa only [Except.map, Except.bind, List.flatMap_singleton] using hcall

/-- A run leaves a session as it is, but opens its connection if a request goes out. -/
theorem carried_eq {α : Type} (s : Session) (d : Http.Delivery) (r : Run α) :
    s.carried d r =
      if (s.sent r).isEmpty then s else { s with connection := s.connection.opened } := by
  rw [carried, Http.Connection.foldl_exchange, sent]
  split <;> rfl

/-- The session goes on with the same client, on a connection that goes on. -/
structure GoesOn (s : Session) (closing : Bool) (t : Session) : Prop where
  same : t = { s with connection := t.connection }
  connection : s.connection.GoesOn closing t.connection

theorem GoesOn.trans {s t u : Session} {a b : Bool} (ht : s.GoesOn a t) (hu : t.GoesOn b u) :
    s.GoesOn (a || b) u where
  same := by rw [hu.same, ht.same]
  connection := ht.connection.trans hu.connection

theorem goesOn_carried {α : Type} (s : Session) (d : Http.Delivery) (r : Run α) :
    s.GoesOn false (s.carried d r) := by
  have hcalls (calls : List Call) (h : Http.Connection) :
      h.GoesOn false (calls.foldl (fun h c => (Http.exchange h d c).2) h) := by
    induction calls generalizing h with
    | nil => exact h.goesOn_self
    | cons c rest ih => exact (h.goesOn_exchange d c).trans (ih _)
  exact ⟨rfl, hcalls r.calls s.connection⟩

theorem goesOn_close (s : Session) : s.GoesOn (s.owned && s.connection.owned) s.close := by
  unfold close
  cases ho : s.owned with
  | true => exact ⟨by simp [ho], by simpa using s.connection.goesOn_close⟩
  | false => exact ⟨rfl, s.connection.goesOn_self⟩

theorem goesOn_apply (s : Session × Descriptors) (e : Http.Event Operation) :
    s.1.GoesOn (s.1.owned && s.1.connection.owned && e.closes) (apply s e).1 := by
  cases e with
  | perform d o =>
    rw [Http.Event.closes, Bool.and_false]
    exact goesOn_carried s.1 d _
  | close | leave =>
    rw [Http.Event.closes, Bool.and_true]
    exact goesOn_close s.1

theorem goesOn_after (s : Session × Descriptors) (es : List (Http.Event Operation)) :
    s.1.GoesOn (s.1.owned && s.1.connection.owned && es.any (·.closes)) (after s es).1 := by
  induction es generalizing s with
  | nil =>
    rw [List.any_nil, Bool.and_false]
    exact ⟨rfl, s.1.connection.goesOn_self⟩
  | cons e rest ih =>
    have hstep := goesOn_apply s e
    have hrest := hstep.trans (ih (apply s e))
    have howned : (apply s e).1.owned = s.1.owned := by rw [hstep.same]
    rw [howned, hstep.connection.owned, ← Bool.and_or_distrib_left] at hrest
    exact hrest

theorem close_close (s : Session) : s.close.close = s.close := by
  unfold close
  cases ho : s.owned <;> simp [ho, Http.Connection.close_close]

end Session

/-- The life of a service and of a client on one, over any run. A connection is closed by a close, or
by leaving, of the service that opened it; a client closes the service that it made and no other. An
operation closes nothing, however it ends, and opens the connection if its request goes out. At any
point an operation goes by whether the connection is closed, and a failure that is the client's own
is the same at every point. -/
theorem Http.lifecycle :
    (∀ (h : Http.Connection) (es : List (Http.Event Call)),
      h.GoesOn (h.owned && es.any (·.closes)) (h.after es) ∧
      (h.after es).close.close = (h.after es).close ∧
      ∀ d c, Http.Goes id (h.after es) c.prepared (d.stub.answer c).result
          ((Http.service (h.after es) d).answer c).result (Http.sent (h.after es) c) ∧
        (Http.exchange (h.after es) d c).2 =
          if (Http.sent (h.after es) c).isEmpty then h.after es else (h.after es).opened) ∧
    ∀ (s : Session) (ds : Descriptors) (es : List (Http.Event Operation)),
      let t := Session.after (s, ds) es
      s.GoesOn (s.owned && s.connection.owned && es.any (·.closes)) t.1 ∧
      t.1.close.close = t.1.close ∧
      ∀ d o, let run := (t.1.perform d t.2 o).1
        Http.Goes Failure.service t.1.connection (s.client.prepared o)
          (s.client.perform d.stub t.2 o).1.result run.result (t.1.sent run) ∧
        t.1.carried d run =
          if (t.1.sent run).isEmpty then t.1
          else { t.1 with connection := t.1.connection.opened } := by
  refine ⟨fun h es => ⟨h.goesOn_after es, (h.after es).close_close, fun d c =>
    ⟨Http.goes_answer _ d c, Http.Connection.exchange_snd _ d c⟩⟩, fun s ds es => ?_⟩
  have hgoes := Session.goesOn_after (s, ds) es
  have hclient : (Session.after (s, ds) es).1.client = s.client := by rw [hgoes.same]
  refine ⟨hgoes, Session.close_close _, fun d o => ⟨?_, Session.carried_eq _ d _⟩⟩
  rw [← hclient]
  exact Session.goes_perform _ d _ o

end WorkflowClient
