import WorkflowClient.Http
import WorkflowClient.Proofs.Client.Endings

/-! What the records of a client tell: calls that it is about to make, and calls that it rejected. -/
namespace WorkflowClient

/-- The text that the warning about a rejected call begins with. -/
def rejectionHead : String := "Rejected call before RPC: "

/-- Nothing in the log is the client's own. -/
def Log.Foreign (log : List Log.Record) : Prop := ∀ x ∈ log, x.component ≠ .client

namespace Log.Record

/-- What the client writes before a call. -/
def announcesCall (x : Log.Record) : Bool := x.component = .client && x.level = Log.debug

/-- What the client writes of a call that it rejects. -/
def tellsRejection (x : Log.Record) : Bool :=
  x.component = .client && x.level = Log.warning &&
    rejectionHead.toList.isPrefixOf x.message.toList

end Log.Record

theorem Log.Foreign.countP_announcesCall {log : List Log.Record} (h : Log.Foreign log) :
    log.countP Log.Record.announcesCall = 0 :=
  List.countP_eq_zero.mpr fun x hx => by simp [Log.Record.announcesCall, h x hx]

theorem Log.Foreign.countP_tellsRejection {log : List Log.Record} (h : Log.Foreign log) :
    log.countP Log.Record.tellsRejection = 0 :=
  List.countP_eq_zero.mpr fun x hx => by simp [Log.Record.tellsRejection, h x hx]

/-- The call does not fit what was declared. -/
def Failure.isRejection : Failure → Bool
  | .diagnostic d => d.aboutValue
  | _ => false

/-- The service logs, but not in the client's name. -/
def Service.Foreign (service : Service) : Prop :=
  ∀ call, Log.Foreign (service.answer call).log

theorem Http.foreign_service (h : Http.Connection) (d : Http.Delivery) :
    (Http.service h d).Foreign := by
  intro call x hx
  cases call <;>
  · rw [List.mem_singleton.mp hx]
    exact fun hclient => by cases hclient

theorem Client.foreign_obliging : obliging.Foreign := by
  intro call x hx
  cases call <;> cases hx

namespace Run
variable {α β : Type} {r : Run α} {vain : Prop}

/-- How many calls the log announces. -/
def announced (r : Run α) : Nat := r.log.countP Log.Record.announcesCall

/-- How many calls were rejected, going by the log. -/
def rejections (r : Run α) : Nat := r.log.countP Log.Record.tellsRejection

def isRejected (r : Run α) : Bool :=
  match r.result with
  | .ok _ => false
  | .error e => e.isRejection

/-- The log tells of a rejection if there is one. It announces the calls that are made, which is at
most one, or else, in vain, one that is not made. -/
structure Traced (vain : Prop) (r : Run α) : Prop where
  rejections : r.rejections = r.isRejected.toNat
  calls : r.calls.length ≤ 1
  faithful : ¬ vain → r.announced = r.calls.length
  vain : vain → r.announced = 1 ∧ r.calls = []

/-- What is done before a call announces it if the call is made, and else only in vain. -/
structure Prepares (vain : Prop) (r : Run α) : Prop where
  rejections : r.rejections = r.isRejected.toNat
  ready (a : α) : r.result = .ok a → r.announced = 1 ∧ ¬ vain
  failed (e : Failure) : r.result = .error e → ¬ vain → r.announced = 0
  vain : vain → r.announced = 1

/-- Nothing is announced or rejected. -/
structure Quiet (r : Run α) : Prop where
  announced : r.announced = 0
  rejections : r.rejections = 0
  isRejected : r.isRejected = false

theorem failed_iff : (∃ e, r.result = .error e) ↔ ¬ ∃ a, r.result = .ok a := by
  cases r.result <;> simp

theorem result_encode_eq_ok {Γ : Catalog} {v : Value} {payload : Option String} :
    (encode Γ v).result = .ok payload ↔ Payload.encode Γ v = .ok payload := by
  unfold encode
  cases Payload.encode Γ v <;> simp [Except.mapError]

theorem announced_bind (r : Run α) (f : α → Run β) :
    (r >>= f).announced = r.announced + match r.result with
      | .ok a => (f a).announced
      | .error _ => 0 := by
  obtain ⟨_ | a, calls, log⟩ := r
  · rfl
  · exact List.countP_append

theorem rejections_bind (r : Run α) (f : α → Run β) :
    (r >>= f).rejections = r.rejections + match r.result with
      | .ok a => (f a).rejections
      | .error _ => 0 := by
  obtain ⟨_ | a, calls, log⟩ := r
  · rfl
  · exact List.countP_append

theorem isRejected_bind (r : Run α) (f : α → Run β) :
    (r >>= f).isRejected = match r.result with
      | .ok a => (f a).isRejected
      | .error e => e.isRejection := by
  obtain ⟨_ | a, calls, log⟩ := r <;> rfl

theorem quiet_of_foreign (hlog : Log.Foreign r.log) (h : r.isRejected = false) : r.Quiet :=
  ⟨hlog.countP_announcesCall, hlog.countP_tellsRejection, h⟩

theorem quiet_pure (a : α) : (pure a : Run α).Quiet := ⟨rfl, rfl, rfl⟩

theorem rejections_warning (m : String) : (warning m).rejections =
    if Log.Record.tellsRejection ⟨.client, Log.warning, m⟩ = true then 1 else 0 :=
  List.countP_singleton ..

theorem quiet_warning {m : String}
    (h : Log.Record.tellsRejection ⟨.client, Log.warning, m⟩ = false) : (warning m).Quiet := by
  refine ⟨rfl, ?_, rfl⟩
  rw [rejections_warning, h]
  rfl

theorem quiet_fail {e : Failure} (h : e.isRejection = false) : (fail e : Run α).Quiet :=
  ⟨rfl, rfl, h⟩

theorem quiet_checked (x : Validation.Checked α) : (checked x).Quiet := by
  cases x <;> exact ⟨rfl, rfl, rfl⟩

theorem quiet_encode (Γ : Catalog) (v : Value) : (encode Γ v).Quiet := by
  refine ⟨rfl, rfl, ?_⟩
  unfold isRejected encode
  cases Payload.encode Γ v <;> rfl

theorem quiet_shown (v : Value) : (shown v).Quiet := by
  unfold shown
  split
  · exact quiet_pure _
  · exact quiet_fail rfl

theorem quiet_decoded {d : Payload.Decoded} (h : Log.Foreign d.log) : (decoded d).Quiet := by
  refine quiet_of_foreign h ?_
  unfold isRejected decoded
  cases d.result <;> rfl

theorem Quiet.isRejection_of_error {e : Failure} (hr : r.Quiet) (he : r.result = .error e) :
    e.isRejection = false := by
  have hrejected := hr.isRejected
  rwa [Run.isRejected, he] at hrejected

theorem Quiet.bind {f : α → Run β} (hr : r.Quiet) (hf : ∀ a, (f a).Quiet) : (r >>= f).Quiet where
  announced := by
    rw [announced_bind, hr.announced]
    split
    · rw [(hf _).announced]
    · rfl
  rejections := by
    rw [rejections_bind, hr.rejections]
    split
    · rw [(hf _).rejections]
    · rfl
  isRejected := by
    rw [isRejected_bind]
    split
    · exact (hf _).isRejected
    · exact hr.isRejection_of_error ‹_›

theorem Quiet.map (hr : r.Quiet) (f : α → β) : (r.map f).Quiet := by
  rw [map_eq, map_eq_pure_bind]
  exact hr.bind fun a => quiet_pure (f a)

theorem prepares_reject {d : Diagnostic} (h : d.aboutValue = true) :
    Prepares False (reject d : Run α) where
  rejections := by
    have hrejected : (reject d : Run α).isRejected = true := h
    have htells : Log.Record.tellsRejection
        ⟨.client, Log.warning, rejectionHead ++ d.message⟩ = true := by
      simp [Log.Record.tellsRejection]
    rw [hrejected, reject, rejections_bind]
    exact congrArg (· + 0) ((rejections_warning _).trans (if_pos htells))
  ready a ha := by cases ha
  failed _ _ _ := rfl
  vain := False.elim

/-- A failure that is no rejection is told nothing of. -/
theorem prepares_fail {e : Failure} (h : e.isRejection = false) :
    Prepares False (fail e : Run α) where
  rejections := by
    rw [(quiet_fail h).rejections, (quiet_fail h).isRejected]
    rfl
  ready _ ha := by cases ha
  failed _ _ _ := rfl
  vain := False.elim

theorem prepares_debug (m : String) (a : α) :
    Prepares False (do debug m; pure a : Run α) where
  rejections := rfl
  ready _ _ := ⟨rfl, id⟩
  failed _ he := by cases he
  vain := False.elim

/-- What fails before a call is announced is not announced at all. -/
theorem Quiet.prepares_bind {f : α → Run β} (hr : r.Quiet) (hf : ∀ a, Prepares False (f a)) :
    Prepares False (r >>= f) where
  rejections := by
    rw [rejections_bind, hr.rejections, isRejected_bind]
    cases hres : r.result with
    | ok a => simp [(hf a).rejections]
    | error e => simp [hr.isRejection_of_error hres]
  ready b hb := by
    obtain ⟨a, ha, hb⟩ := result_bind_eq_ok.mp hb
    rw [announced_bind, hr.announced, ha, Nat.zero_add]
    exact (hf a).ready b hb
  failed e he hv := by
    rw [announced_bind, hr.announced]
    cases hres : r.result with
    | ok a =>
      rw [result_bind, hres] at he
      simp [(hf a).failed e he hv]
    | error _ => rfl
  vain := False.elim

theorem Quiet.announced_debug {next : Run α} (hn : next.Quiet) (m : String) :
    (do debug m; next : Run α).announced = 1 := by
  rw [announced_bind]
  exact congrArg (1 + ·) hn.announced

/-- What fails after a call is announced is announced in vain. -/
theorem Quiet.prepares_announced {next : Run α} (hn : next.Quiet) (v : Value)
    (m : String → String) :
    Prepares (v.shown?.isSome = true ∧ ∃ e, next.result = .error e)
      (do let id ← shown v; debug (m id); next) := by
  cases hv : v.shown? with
  | none =>
    have hshown : shown v = fail .unwritable := by rw [shown, hv]
    rw [hshown]
    exact
      { rejections := rfl
        ready := fun a ha => by cases ha
        failed := fun _ _ _ => rfl
        vain := fun h => by cases h.1 }
  | some id =>
    have hshown : shown v = pure id := by rw [shown, hv]
    rw [hshown, pure_bind]
    have hannounced := hn.announced_debug (m id)
    exact
      { rejections := by
          rw [rejections_bind, isRejected_bind]
          exact (Nat.zero_add _).trans
            (hn.rejections.trans (congrArg Bool.toNat hn.isRejected).symm)
        ready := fun a ha => ⟨hannounced, fun ⟨_, e, he⟩ => by cases he.symm.trans ha⟩
        failed := fun e he hvain => absurd ⟨rfl, e, he⟩ hvain
        vain := fun _ => hannounced }

theorem Prepares.congr {vain' : Prop} (h : vain ↔ vain') (hr : r.Prepares vain) :
    r.Prepares vain' :=
  propext h ▸ hr

theorem Prepares.of_not (h : ¬ vain) (hr : r.Prepares False) : r.Prepares vain :=
  hr.congr (iff_of_false id h)

/-- What is made of the preparation of a call does not change what is known of it. -/
theorem Prepares.map (f : α → β) (hr : r.Prepares vain) :
    Prepares vain (do let a ← r; pure (f a)) where
  rejections := by
    have hrejections := hr.rejections
    rw [rejections_bind, isRejected_bind]
    unfold Run.isRejected at hrejections
    cases hres : r.result with
    | ok a =>
      have hpure := quiet_pure (f a)
      simpa [hres, hpure.rejections, hpure.isRejected] using hrejections
    | error e => simpa [hres] using hrejections
  ready b hb := by
    obtain ⟨a, ha, -⟩ := result_bind_pure hb
    rw [announced_bind, ha]
    exact hr.ready a ha
  failed e he hv := by
    rw [announced_bind]
    cases hres : r.result with
    | ok a =>
      rw [result_bind, hres] at he
      cases he
    | error e' => exact hr.failed e' hres hv
  vain hv := by
    rw [announced_bind, hr.vain hv]
    split <;> rfl

end Run

namespace Payload
variable {Γ : Catalog}

theorem foreign_decodeText (d : Descriptor) (text : String) :
    Log.Foreign (decodeText Γ d text).log := by
  unfold decodeText
  split <;> simp [Log.Foreign]

theorem foreign_decodeWith (d : Descriptor) (raw : Option String) :
    Log.Foreign (decodeWith Γ d raw).log := by
  unfold decodeWith
  split
  · simp [Log.Foreign]
  · exact foreign_decodeText _ _

theorem foreign_decode (s : Descriptors) (raw : Option String) (target : Target) :
    Log.Foreign (decode Γ s raw target).1.log := by
  unfold decode
  split
  · simp [Log.Foreign]
  · split
    · simp [Log.Foreign]
    · exact foreign_decodeText _ _

end Payload

end WorkflowClient
