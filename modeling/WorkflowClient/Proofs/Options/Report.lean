import WorkflowClient.Declaration
import WorkflowClient.Options
import WorkflowClient.Proofs.Number.Digits

/-! What options keep to once they have passed their check, and what is reported if they do not. -/
namespace WorkflowClient

namespace Options

/-- A timeout that breaks no rule is not negative. -/
theorem workflowTimeout_nonneg {o : Options} (h : o.violations = []) : 0 ≤ o.workflowTimeout := by
  refine Int.not_lt.mp fun hneg => ?_
  simp [violations, workflowTimeoutViolation, hneg] at h

theorem check_eq_ok_iff {o p : Options} : o.check = .ok p ↔ o.violations = [] ∧ p = o := by
  constructor
  · intro h
    unfold check at h
    split at h
    · split at h
      · cases h
      · rename_i hnone
        cases h
        exact ⟨Diagnostic.raised?_eq_none.mp hnone, rfl⟩
    · cases h
  · rintro ⟨hv, rfl⟩
    have hnone : Diagnostic.raised? "config" p.violations = none :=
      Diagnostic.raised?_eq_none.mpr hv
    have htimeout : reportable p.workflowTimeout = true := by
      simp [reportable, workflowTimeout_nonneg hv]
    simp [check, htimeout, hnone]

end Options

theorem StartOptions.check_eq_ok_iff {o p : StartOptions} :
    o.check = .ok p ↔ 0 ≤ o.workflowTimeout ∧ p = o := by
  unfold check
  by_cases hneg : o.workflowTimeout < 0
  · rw [if_pos hneg]
    refine iff_of_false ?_ (fun h => by omega)
    split <;> simp
  · rw [if_neg hneg, Except.ok.injEq]
    constructor
    · intro h
      exact ⟨Int.not_lt.mp hneg, h.symm⟩
    · intro h
      exact h.2.symm

/-! Settings are taken as they are given, or refused with one error for each that breaks its rule. -/

namespace Number.Double

/-- Greater than zero: infinity, or a finite double whose quotient is. -/
inductive Positive : Double → Prop
  | infinite : Positive (.infinite false)
  | finite {x : Double} {n : Int} {d : Nat} (hx : x.ratio? = some (n, d)) (hn : 0 < n) : Positive x

theorem not_positive_nan : ¬ Positive .nan := by
  intro h
  cases h with
  | finite hx _ => cases hx

theorem positive_finite_iff {negative : Bool} {m : Nat} {e : Int} {c : Canonical m e} :
    Positive (.finite negative m e c) ↔ negative = false ∧ m ≠ 0 := by
  have hpow : 0 < Nat.pow 2 e.toNat := Nat.pow_pos (by decide)
  constructor
  · intro h
    cases h with
    | finite hx hn =>
      obtain ⟨rfl, -⟩ := Prod.mk.inj (Option.some.inj hx)
      cases negative with
      | true =>
        rw [if_pos rfl] at hn
        omega
      | false =>
        refine ⟨rfl, ?_⟩
        rintro rfl
        rw [if_neg Bool.false_ne_true, Nat.zero_mul] at hn
        exact absurd hn (Int.lt_irrefl 0)
  · rintro ⟨rfl, hm⟩
    have hpos : 0 < m * Nat.pow 2 e.toNat := Nat.mul_pos (Nat.pos_of_ne_zero hm) hpow
    exact .finite rfl (Int.natCast_pos.mpr hpos)

/-- What is not at most zero is greater than zero, but for the NaN, which is neither. -/
theorem nonPositive_eq_false_iff {x : Double} : x.nonPositive = false ↔ x.Positive ∨ x = .nan := by
  cases x with
  | nan => simp [nonPositive]
  | infinite s =>
    cases s with
    | true =>
      refine iff_of_false (by simp [nonPositive]) ?_
      rintro (h | h)
      · cases h with
        | finite hx _ => cases hx
      · cases h
    | false => exact iff_of_true rfl (.inl .infinite)
  | finite s m e c =>
    rw [positive_finite_iff]
    cases s <;> simp [nonPositive]

end Number.Double

namespace Options
open Message (Members)

variable {o : Options} {errors : List Diagnostic} {e : Diagnostic}

/-- An address that says how to get there. -/
def Absolute (url : String) : Prop :=
  ∃ scheme ∈ ["http://", "https://"], scheme.toList <+: url.toList

instance (url : String) : Decidable (Absolute url) :=
  inferInstanceAs (Decidable (∃ scheme ∈ ["http://", "https://"], scheme.toList <+: url.toList))

/-- The settings that are accepted. -/
structure Sound (o : Options) : Prop where
  serverUrl : Absolute o.serverUrl
  workerUrl : Absolute o.workerUrl
  workflowTimeout : 0 ≤ o.workflowTimeout
  requestTimeout : ∀ t ∈ o.requestTimeout, t.Positive

/-- A configuration error of that number whose note shows the value of the setting. -/
def Blames (number setting shown : String) (e : Diagnostic) : Prop :=
  ∃ header, e = .single .configuration header ∧ header.code.map Code.text = some number ∧
    header.notes = ["got " ++ setting ++ "=" ++ shown]

/-- What is reported on one setting: nothing, or an error if it breaks its rule. -/
inductive Finding (rule : Prop) (number setting shown : String) : List Diagnostic → Prop
  | kept (h : rule) : Finding rule number setting shown []
  | broken {e : Diagnostic} (h : ¬ rule) (he : Blames number setting shown e) :
      Finding rule number setting shown [e]

/-- All that is wrong with the settings, in this order. -/
inductive Report (o : Options) : List Diagnostic → Prop
  | settings {server worker workflow request : List Diagnostic}
      (hs : Finding (Absolute o.serverUrl) "E200" "server_url" (Text.quoted o.serverUrl) server)
      (hw : Finding (Absolute o.workerUrl) "E200" "worker_url" (Text.quoted o.workerUrl) worker)
      (ht : Finding (0 ≤ o.workflowTimeout) "E201" "default_workflow_timeout_seconds"
        (toString o.workflowTimeout) workflow)
      (hr : Finding (∀ t ∈ o.requestTimeout, t.Positive) "E201" "request_timeout_seconds"
        ((o.requestTimeout.map (·.text)).getD "None") request) :
      Report o (server ++ worker ++ workflow ++ request)

/-- What comes of a report: without errors the options are as they were given, one error is raised
as itself, and more are raised together. -/
structure Raises (o : Options) (errors : List Diagnostic) (result : Except Failure Options) :
    Prop where
  none : errors = [] → result = .ok o
  one (e : Diagnostic) : errors = [e] → result = .error (.diagnostic e)
  many : 2 ≤ errors.length → result = .error (.diagnostic (.multiple
    { message := Diagnostic.abortingMessage errors.length } "config" errors))

theorem isUrl_iff {url : String} : isUrl url = true ↔ Absolute url := by
  simp [isUrl, Absolute, String.startsWith_string_iff]

theorem Finding.eq_nil_iff {rule : Prop} {number setting shown : String}
    (h : Finding rule number setting shown errors) : errors = [] ↔ rule := by
  cases h with
  | kept h => exact iff_of_true rfl h
  | broken h _ => exact iff_of_false (by simp) h

theorem Report.eq_nil_iff (h : o.Report errors) : errors = [] ↔ o.Sound := by
  cases h with
  | settings hs hw ht hr =>
    simp only [List.append_eq_nil_iff, hs.eq_nil_iff, hw.eq_nil_iff, ht.eq_nil_iff, hr.eq_nil_iff]
    constructor
    · rintro ⟨⟨⟨server, worker⟩, workflow⟩, request⟩
      exact ⟨server, worker, workflow, request⟩
    · rintro ⟨server, worker, workflow, request⟩
      exact ⟨⟨⟨server, worker⟩, workflow⟩, request⟩

theorem finding_url (setting url : String) :
    Finding (Absolute url) "E200" setting (Text.quoted url) (urlViolation setting url) := by
  unfold urlViolation
  by_cases h : isUrl url = true
  · rw [if_pos h]
    exact .kept (isUrl_iff.mp h)
  · rw [if_neg h]
    exact .broken (mt isUrl_iff.mpr h) ⟨_, rfl, rfl, rfl⟩

theorem finding_workflowTimeout (n : Int) :
    Finding (0 ≤ n) "E201" "default_workflow_timeout_seconds" (toString n)
      (workflowTimeoutViolation n) := by
  unfold workflowTimeoutViolation
  by_cases h : n < 0
  · rw [if_pos h]
    refine .broken (by omega) ⟨_, rfl, rfl, ?_⟩
    rw [Number.toString_eq_intText]
    rfl
  · rw [if_neg h]
    exact .kept (by omega)

theorem finding_requestTimeout {timeout : Option Number.Double} (hnan : timeout ≠ some .nan) :
    Finding (∀ t ∈ timeout, t.Positive) "E201" "request_timeout_seconds"
      ((timeout.map (·.text)).getD "None") (requestTimeoutViolation timeout) := by
  unfold requestTimeoutViolation
  cases timeout with
  | none => exact .kept (by simp)
  | some t =>
    have hiff := Number.Double.nonPositive_eq_false_iff (x := t)
    have hne : t ≠ .nan := fun h => hnan (congrArg some h)
    dsimp only
    cases h : t.nonPositive with
    | true =>
      refine .broken ?_ ⟨_, rfl, rfl, rfl⟩
      intro hrule
      have hf := hiff.mpr (.inl (hrule t rfl))
      rw [h] at hf
      cases hf
    | false =>
      refine .kept ?_
      intro t' ht'
      obtain rfl := Option.mem_some_iff.mp ht'
      exact (hiff.mp h).resolve_right hne

theorem report_violations (hnan : o.requestTimeout ≠ some .nan) : o.Report o.violations :=
  .settings (finding_url ..) (finding_url ..) (finding_workflowTimeout _)
    (finding_requestTimeout hnan)

/-- The settings are read as they are given. -/
theorem run_fields (o : Options) : reading.run o.fields = .ok o := by
  obtain ⟨server, worker, workflow, request⟩ := o
  cases request <;> rfl

theorem ofMembers_of_run {given : Members} (h : reading.run given = .ok o) :
    ofMembers given = o.check := by
  rw [ofMembers, h]

theorem ofMembers_fields (o : Options) : ofMembers o.fields = o.check :=
  ofMembers_of_run (run_fields o)

/-- Options are made of settings that can be read and break no rule. -/
theorem ofMembers_eq_ok_iff {given : Members} :
    ofMembers given = .ok o ↔ reading.run given = .ok o ∧ o.violations = [] := by
  constructor
  · intro h
    cases hread : reading.run given with
    | error faults =>
      rw [ofMembers, hread] at h
      cases h
    | ok p =>
      rw [ofMembers_of_run hread] at h
      obtain ⟨hviolations, rfl⟩ := check_eq_ok_iff.mp h
      exact ⟨rfl, hviolations⟩
  · rintro ⟨hread, hviolations⟩
    rw [ofMembers_of_run hread]
    exact check_eq_ok_iff.mpr ⟨hviolations, rfl⟩

theorem reportable_iff {n : Int} :
    reportable n = true ↔ -(10 ^ Number.digitLimit : Nat) < n := by
  have hpos : 0 < 10 ^ Number.digitLimit := Nat.pow_pos (by decide)
  simp only [reportable, Bool.or_eq_true, Bool.not_eq_true', decide_eq_false_iff_not,
    Number.writable_iff]
  omega

theorem check_of_not_reportable (h : ¬ reportable o.workflowTimeout = true) :
    o.check = .error (.invalid [⟨.valueError, []⟩]) := if_neg h

theorem raises_check (h : reportable o.workflowTimeout = true) :
    o.Raises o.violations o.check := by
  unfold check
  rw [if_pos h]
  constructor
  · intro hv
    rw [hv]
    rfl
  · intro e hv
    rw [hv]
    rfl
  · intro hv
    match hlist : o.violations with
    | [] => simp [hlist] at hv
    | [_] => simp [hlist] at hv
    | _ :: _ :: _ => rfl

theorem Raises.exists_ok_iff {result : Except Failure Options} (h : o.Raises errors result) :
    (∃ p, result = .ok p) ↔ errors = [] := by
  constructor
  · rintro ⟨p, rfl⟩
    match errors, h with
    | [], _ => rfl
    | [e], h => cases h.one e rfl
    | _ :: _ :: _, h => cases h.many (by simp)
  · intro hnil
    exact ⟨o, h.none hnil⟩

/-- Options are made of settings exactly if these are sound, and then they are those settings.
Otherwise the settings that are not sound are reported, each by one error and in their order, one
error as itself and more together. A negative timeout of so many digits that no text can show it is
a fault instead, and hides whatever else there is to report. -/
theorem ofMembers_outcomes (o : Options) (hnan : o.requestTimeout ≠ some .nan) :
    ((∃ p, ofMembers o.fields = .ok p) ↔ o.Sound) ∧
    ∃ errors, o.Report errors ∧
      (-(10 ^ Number.digitLimit : Nat) < o.workflowTimeout →
        o.Raises errors (ofMembers o.fields)) ∧
      (o.workflowTimeout ≤ -(10 ^ Number.digitLimit : Nat) →
        ofMembers o.fields = .error (.invalid [⟨.valueError, []⟩])) := by
  have hreport := report_violations hnan
  rw [ofMembers_fields]
  by_cases ht : reportable o.workflowTimeout = true
  · have hraises := raises_check ht
    rw [hraises.exists_ok_iff, hreport.eq_nil_iff]
    refine ⟨Iff.rfl, _, hreport, fun _ => hraises, fun hlow => ?_⟩
    exact absurd (reportable_iff.mp ht) (Int.not_lt.mpr hlow)
  · have hcheck := check_of_not_reportable ht
    have hlow := mt reportable_iff.mpr ht
    refine ⟨iff_of_false ?_ ?_, _, hreport, fun h => absurd h hlow, fun _ => hcheck⟩
    · rw [hcheck]
      rintro ⟨p, hp⟩
      cases hp
    · intro hsound
      have hnonneg := hsound.workflowTimeout
      have hpos : 0 < 10 ^ Number.digitLimit := Nat.pow_pos (by decide)
      omega

/-- Three of the four settings break their rules. -/
def careless : Options := { serverUrl := "iwf", workerUrl := "worker", workflowTimeout := -5 }

theorem ofMembers_outcomes_careless :
    careless.requestTimeout ≠ some .nan ∧
      ∃ server worker workflow, Blames "E200" "server_url" "'iwf'" server ∧
        Blames "E200" "worker_url" "'worker'" worker ∧
        Blames "E201" "default_workflow_timeout_seconds" "-5" workflow ∧
        ofMembers careless.fields = .error (.diagnostic (.multiple
          { message := "aborting due to 3 previous errors" } "config"
          [server, worker, workflow])) := by
  have hnan : careless.requestTimeout ≠ some .nan := by simp [careless]
  obtain ⟨-, errors, hreport, hraises, -⟩ := ofMembers_outcomes careless hnan
  replace hraises := hraises (reportable_iff.mp (by decide +kernel))
  refine ⟨hnan, ?_⟩
  cases hreport with
  | settings hs hw ht hr =>
    cases hs with
    | kept h => exact absurd h (by decide)
    | broken _ hserver =>
      cases hw with
      | kept h => exact absurd h (by decide)
      | broken _ hworker =>
        cases ht with
        | kept h => exact absurd h (by decide)
        | broken _ hworkflow =>
          cases hr with
          | kept =>
            have hmessage : Diagnostic.abortingMessage 3 = "aborting due to 3 previous errors" := by
              decide +kernel
            rw [← hmessage]
            exact ⟨_, _, _, hserver, hworker, hworkflow, hraises.many (Nat.le_add_left 2 1)⟩
          | broken h _ => exact absurd (by simp [careless]) h

/-- An address without a scheme, and a timeout of 4301 digits below zero. -/
def farBelow : Options :=
  { serverUrl := "iwf", workflowTimeout := -(10 ^ Number.digitLimit : Nat) }

/-- Two errors are to be raised together, and neither of them is. -/
theorem farBelow_not_reported :
    ∃ errors, farBelow.Report errors ∧ errors.length = 2 ∧
      ¬ farBelow.Raises errors (ofMembers farBelow.fields) := by
  have hnan : farBelow.requestTimeout ≠ some .nan := by
    change (none : Option Number.Double) ≠ _
    simp
  have hlow : ¬ reportable farBelow.workflowTimeout = true := by
    rw [reportable_iff]
    exact Int.lt_irrefl _
  have hlength : farBelow.violations.length = 2 := by decide +kernel
  refine ⟨_, report_violations hnan, hlength, ?_⟩
  intro hraises
  have hmany := hraises.many (by omega)
  rw [ofMembers_fields, check_of_not_reportable hlow] at hmany
  cases hmany

end Options
end WorkflowClient
