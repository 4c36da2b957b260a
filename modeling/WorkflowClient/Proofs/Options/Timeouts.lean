import WorkflowClient.Client.Session
import WorkflowClient.Proofs.Options.Report

/-! Which timeouts options can have, and hand on to a connection. -/
namespace WorkflowClient.Options
open Message (Members)

variable {o : Options}

/-- Options come of settings by name, or of the environment. -/
inductive Made (o : Options) : Prop
  | members {given : Members} (h : ofMembers given = .ok o)
  | environment {stem : String} {env : Diagnostic.Environment} (h : ofEnvironment stem env = .ok o)

/-- What a connection can wait: as long as it takes, or so many seconds more than none. -/
inductive Usable : Value → Prop
  | unlimited : Usable .none
  | seconds {t : Number.Double} (h : t.Positive) : Usable (.float t)

theorem not_usable_nan : ¬ Usable (.float .nan) := by
  intro h
  cases h with
  | seconds h => exact Number.Double.not_positive_nan h

theorem requestTimeoutViolation_eq_nil_iff {timeout : Option Number.Double} :
    requestTimeoutViolation timeout = [] ↔ Usable (ofFloat? timeout) ∨ timeout = some .nan := by
  cases timeout with
  | none => exact iff_of_true rfl (.inl .unlimited)
  | some t =>
    have hiff := Number.Double.nonPositive_eq_false_iff (x := t)
    have hlist : requestTimeoutViolation (some t) = [] ↔ t.nonPositive = false := by
      cases h : t.nonPositive <;> simp [requestTimeoutViolation, h]
    rw [hlist, hiff]
    constructor
    · rintro (h | rfl)
      · exact .inl (.seconds h)
      · exact .inr rfl
    · rintro (h | h)
      · cases h with
        | seconds h => exact .inl h
      · exact .inr (Option.some.inj h)

theorem violations_eq_nil_iff :
    o.violations = [] ↔ Absolute o.serverUrl ∧ Absolute o.workerUrl ∧ 0 ≤ o.workflowTimeout ∧
      (Usable (ofFloat? o.requestTimeout) ∨ o.requestTimeout = some .nan) := by
  simp only [violations, List.append_eq_nil_iff, (finding_url ..).eq_nil_iff,
    (finding_workflowTimeout _).eq_nil_iff, requestTimeoutViolation_eq_nil_iff, and_assoc]

theorem made_iff_violations : Made o ↔ o.violations = [] := by
  constructor
  · rintro (h | h)
    · exact (ofMembers_eq_ok_iff.mp h).2
    · exact (ofMembers_eq_ok_iff.mp h).2
  · intro h
    exact .members (ofMembers_eq_ok_iff.mpr ⟨run_fields o, h⟩)

/-- Options can be made exactly with these settings, and the connection of a client waits as long as
its options say. So a connection is told to wait without end or for a time above zero, unless it is
told a NaN, which no check keeps out. -/
theorem made_iff_usable (o : Options) :
    (Made o ↔ Absolute o.serverUrl ∧ Absolute o.workerUrl ∧ 0 ≤ o.workflowTimeout ∧
      (Usable (ofFloat? o.requestTimeout) ∨ o.requestTimeout = some .nan)) ∧
    ∀ c : Client, (Session.own { c with options := o }).connection.timeout =
      ofFloat? o.requestTimeout :=
  ⟨made_iff_violations.trans violations_eq_nil_iff, fun _ => rfl⟩

/-- A NaN passes, as a number and as a text of the environment. -/
theorem nan_is_made :
    ∃ o, ofMembers [("request_timeout_seconds", .float .nan)] = .ok o ∧
      ofEnvironment "STATEWIRE_" [("STATEWIRE_REQUEST_TIMEOUT_SECONDS", "nan")] = .ok o ∧
      ¬ Usable (ofFloat? o.requestTimeout) := by
  have hviolations : ({ requestTimeout := some .nan } : Options).violations = [] :=
    violations_eq_nil_iff.mpr ⟨by decide, by decide, by decide, .inr rfl⟩
  exact ⟨_, ofMembers_eq_ok_iff.mpr ⟨rfl, hviolations⟩,
    ofMembers_eq_ok_iff.mpr ⟨rfl, hviolations⟩, not_usable_nan⟩

end WorkflowClient.Options
