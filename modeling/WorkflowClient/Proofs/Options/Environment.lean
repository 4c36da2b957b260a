import WorkflowClient.Proofs.Message.Reading
import WorkflowClient.Proofs.Number.Text
import WorkflowClient.Proofs.Options.Report
import WorkflowClient.Proofs.Payload.Reads

/-! Options that are spelled out in the environment come back from it, and no other variable has a
say in them. -/
namespace WorkflowClient.Options
open Message (Members find?)
open Validation (Checked)

variable {stem name s : String} {env : Diagnostic.Environment} {o : Options} {α : Type}
  {text : α → String} {default : α} {decode : Value → Checked α} {a : α}

/-- What a variable says. An empty one says nothing, like one that is not there. -/
def said? (env : Diagnostic.Environment) (name : String) : Option String :=
  (env.get? name).filter fun s => !s.isEmpty

/-- A variable spells a setting out, or says nothing and leaves it to the default. -/
inductive Spelled (env : Diagnostic.Environment) (name : String) (text : α → String) (default : α) :
    α → Prop
  | given {a : α} (h : env.get? name = some (text a)) : Spelled env name text default a
  | left (h : said? env name = none) : Spelled env name text default default

/-- The variables spell the options out, each setting under its name in upper case after the stem.
An unlimited wait has the empty text. -/
structure Spells (stem : String) (env : Diagnostic.Environment) (o : Options) : Prop where
  serverUrl : Spelled env (stem ++ "SERVER_URL") id ({} : Options).serverUrl o.serverUrl
  workerUrl : Spelled env (stem ++ "WORKER_URL") id ({} : Options).workerUrl o.workerUrl
  workflowTimeout : Spelled env (stem ++ "DEFAULT_WORKFLOW_TIMEOUT_SECONDS") toString
    ({} : Options).workflowTimeout o.workflowTimeout
  requestTimeout : Spelled env (stem ++ "REQUEST_TIMEOUT_SECONDS")
    (fun t => (t.map (·.text)).getD "") ({} : Options).requestTimeout o.requestTimeout

theorem said?_of_get? (h : env.get? name = some s) :
    said? env name = if s = "" then none else some s := by
  unfold said?
  rw [h, Option.filter_some]
  by_cases hs : s = "" <;> simp [hs]

theorem environmentMembers_eq (stem : String) (env : Diagnostic.Environment) :
    environmentMembers stem env =
      names.filterMap fun name => (said? env (stem ++ upper name)).map fun s => (name, .str s) := by
  refine congrArg (fun f => names.filterMap f) (funext fun name => ?_)
  unfold said?
  cases env.get? (stem ++ upper name) with
  | none => rfl
  | some s =>
    rw [Option.filter_some]
    cases h : s.isEmpty <;> simp [h]

/-- A member that is made of its own name is found under it, however many others there are. -/
theorem find?_filterMap {names : List String} (f : String → Option Value) (h : name ∈ names) :
    find? (names.filterMap fun n => (f n).map fun v => (n, v)) [name] =
      (f name).map fun v => (name, v) := by
  have hfind : ∀ {ms : List (String × Value)},
      find? ms [name] = ms.find? (·.1 == name) := fun {ms} => by simp [find?]
  rw [hfind]
  induction names with
  | nil => cases h
  | cons n rest ih =>
    by_cases hn : n = name
    · subst hn
      cases hf : f n with
      | some v => simp [hf]
      | none =>
        rw [List.filterMap_cons_none (by rw [hf]; rfl), Option.map_none, List.find?_eq_none]
        -- Nothing is made of the name, so nothing of its repetitions either.
        intro m hm hkey
        obtain ⟨k, -, hk⟩ := List.mem_filterMap.mp hm
        obtain ⟨v, hv, rfl⟩ := Option.map_eq_some_iff.mp hk
        have hkn : k = n := eq_of_beq hkey
        rw [hkn, hf] at hv
        cases hv
    · have hrest := ih ((List.mem_cons.mp h).resolve_left (Ne.symm hn))
      cases hf : f n with
      | some v =>
        rw [List.filterMap_cons_some (by rw [hf]; rfl),
          List.find?_cons_of_neg (by simpa using hn), hrest]
      | none => rw [List.filterMap_cons_none (by rw [hf]; rfl), hrest]

/-- A setting is read from what its variable says. -/
theorem run_setting (h : name ∈ names) :
    (setting name default decode).run (environmentMembers stem env) =
      match said? env (stem ++ upper name) with
      | none => .ok default
      | some s => (decode (.str s)).below (.name name) := by
  have hfind := find?_filterMap (fun n => (said? env (stem ++ upper n)).map .str) h
  simp only [Option.map_map, Function.comp_def] at hfind
  unfold setting Message.field
  rw [environmentMembers_eq]
  dsimp only
  rw [hfind]
  cases said? env (stem ++ upper name) <;> rfl

theorem run_setting_of_spelled (h : name ∈ names)
    (hs : Spelled env (stem ++ upper name) text default a)
    (hempty : text a = "" → a = default) (hread : text a ≠ "" → decode (.str (text a)) = .ok a) :
    (setting name default decode).run (environmentMembers stem env) = .ok a := by
  rw [run_setting h]
  cases hs with
  | left h => rw [h]
  | given h =>
    rw [said?_of_get? h]
    by_cases htext : text a = ""
    · rw [if_pos htext, hempty htext]
    · rw [if_neg htext]
      exact Validation.below_eq_ok.mpr (hread htext)

theorem run_setting_of_unsaid (h : name ∈ names) (hs : said? env (stem ++ upper name) = none)
    (hrun : (setting name default decode).run (environmentMembers stem env) = .ok a) :
    a = default := by
  rw [run_setting h, hs] at hrun
  exact (Except.ok.inj hrun).symm

theorem run_eq_ok_iff {ms : Members} :
    reading.run ms = .ok o ↔
      (setting "server_url" ({} : Options).serverUrl Message.text).run ms = .ok o.serverUrl ∧
      (setting "worker_url" ({} : Options).workerUrl Message.text).run ms = .ok o.workerUrl ∧
      (setting "default_workflow_timeout_seconds" ({} : Options).workflowTimeout
        Message.integer).run ms = .ok o.workflowTimeout ∧
      (setting "request_timeout_seconds" ({} : Options).requestTimeout
        (Message.nullable Message.float)).run ms = .ok o.requestTimeout := by
  unfold reading
  simp only [Message.run_seq_eq_ok, Message.run_map_eq_ok]
  constructor
  · rintro ⟨_, request, ⟨_, workflow, ⟨_, worker, ⟨server, hs, rfl⟩, hw, rfl⟩, ht, rfl⟩, hr, rfl⟩
    exact ⟨hs, hw, ht, hr⟩
  · rintro ⟨hs, hw, ht, hr⟩
    exact ⟨_, _, ⟨_, _, ⟨_, _, ⟨_, hs, rfl⟩, hw, rfl⟩, ht, rfl⟩, hr, rfl⟩

theorem integer_toString {n : Int} (h : Number.writable n = true) :
    Message.integer (.str (toString n)) = .ok n := by
  have hread : Validation.checkInt .lax (.str (toString n)) = .ok (n, .lax) := by
    change Validation.lax (Validation.intOfChars (toString n).toList) = _
    rw [Number.toString_eq_intText, String.toList_ofList, Payload.intOfChars_intText h]
    rfl
  unfold Message.integer Message.scalar
  rw [hread]

theorem float_text (x : Number.Double) : Message.float (.str x.text) = .ok x := by
  have hread : Validation.checkFloat .lax (.str x.text) = .ok (x, .lax) := by
    simp only [Validation.checkFloat, Validation.chars?, Value.text?, Number.double?_text]
    rfl
  unfold Message.float Message.scalar
  rw [hread]

theorem text_ne_empty (x : Number.Double) : x.text ≠ "" := by
  intro h
  have hread := Number.double?_text x
  rw [h] at hread
  cases hread

theorem ne_empty_of_absolute {url : String} (h : Absolute url) : url ≠ "" := by
  rintro rfl
  exact absurd h (by decide)

theorem Sound.violations_eq_nil (h : o.Sound) : o.violations = [] := by
  have hnan : o.requestTimeout ≠ some .nan := by
    intro hnan
    exact Number.Double.not_positive_nan (h.requestTimeout .nan hnan)
  exact (report_violations hnan).eq_nil_iff.mpr h

theorem run_environmentMembers (hsound : o.Sound)
    (htimeout : Number.writable o.workflowTimeout = true) (hspells : Spells stem env o) :
    reading.run (environmentMembers stem env) = .ok o := by
  refine run_eq_ok_iff.mpr ⟨?server, ?worker, ?workflow, ?request⟩
  case server =>
    exact run_setting_of_spelled (by decide) hspells.serverUrl
      (fun h => absurd h (ne_empty_of_absolute hsound.serverUrl)) (fun _ => rfl)
  case worker =>
    exact run_setting_of_spelled (by decide) hspells.workerUrl
      (fun h => absurd h (ne_empty_of_absolute hsound.workerUrl)) (fun _ => rfl)
  case workflow =>
    refine run_setting_of_spelled (by decide) hspells.workflowTimeout (fun h => ?_)
      (fun _ => integer_toString htimeout)
    have hread := integer_toString htimeout
    rw [h] at hread
    cases hread
  case request =>
    refine run_setting_of_spelled (by decide) hspells.requestTimeout (fun h => ?_) (fun h => ?_)
    · cases ht : o.requestTimeout with
      | none => rfl
      | some t =>
        rw [ht] at h
        exact absurd h (text_ne_empty t)
    · cases ht : o.requestTimeout with
      | none =>
        rw [ht] at h
        exact absurd rfl h
      | some t =>
        change (Message.float (.str t.text)).map some = _
        rw [float_text]
        rfl

theorem environmentMembers_congr {env' : Diagnostic.Environment}
    (h : ∀ name ∈ names, said? env (stem ++ upper name) = said? env' (stem ++ upper name)) :
    environmentMembers stem env = environmentMembers stem env' := by
  rw [environmentMembers_eq, environmentMembers_eq]
  refine List.filterMap_congr fun name hname => ?_
  rw [h name hname]

/-- A setting that its variable leaves unsaid has the value that it has in default options. -/
theorem mem_fields_of_unsaid (hrun : reading.run (environmentMembers stem env) = .ok o)
    {m : String × Value} (hm : m ∈ o.fields) (hs : said? env (stem ++ upper m.1) = none) :
    m ∈ ({} : Options).fields := by
  obtain ⟨hserver, hworker, hworkflow, hrequest⟩ := run_eq_ok_iff.mp hrun
  have hnames : "server_url" ∈ names ∧ "worker_url" ∈ names ∧
      "default_workflow_timeout_seconds" ∈ names ∧ "request_timeout_seconds" ∈ names := by decide
  simp only [fields, List.mem_cons, List.not_mem_nil, or_false] at hm ⊢
  rcases hm with rfl | rfl | rfl | rfl
  · rw [run_setting_of_unsaid hnames.1 hs hserver]
    exact .inl rfl
  · rw [run_setting_of_unsaid hnames.2.1 hs hworker]
    exact .inr (.inl rfl)
  · rw [run_setting_of_unsaid hnames.2.2.1 hs hworkflow]
    exact .inr (.inr (.inl rfl))
  · rw [run_setting_of_unsaid hnames.2.2.2 hs hrequest]
    exact .inr (.inr (.inr rfl))

/-- Options that the variables handed in spell out are the options that come of them. What comes of
them depends on nothing but what the four variables of the settings say, neither on the other
variables nor on those of the process; and a setting of which its variable says nothing has its
default. -/
theorem ofVariables_spelled (stem : String) (process : Diagnostic.Environment) :
    (∀ (o : Options) env, o.Sound → o.workflowTimeout < (10 ^ Number.digitLimit : Nat) →
      Spells stem env o → ofVariables stem process (some env) = .ok o) ∧
    (∀ process' env env',
      (∀ name ∈ names, said? env (stem ++ upper name) = said? env' (stem ++ upper name)) →
      ofVariables stem process (some env) = ofVariables stem process' (some env')) ∧
    ∀ env o, ofVariables stem process (some env) = .ok o →
      ∀ m ∈ o.fields, said? env (stem ++ upper m.1) = none → m ∈ ({} : Options).fields := by
  refine ⟨?spelled, ?other, ?unsaid⟩
  case spelled =>
    intro o env hsound htimeout hspells
    have hnonneg := hsound.workflowTimeout
    have hwritable : Number.writable o.workflowTimeout = true :=
      Number.writable_iff.mpr (by omega)
    exact ofMembers_eq_ok_iff.mpr ⟨run_environmentMembers hsound hwritable hspells,
      hsound.violations_eq_nil⟩
  case other =>
    intro process' env env' hsaid
    exact congrArg ofMembers (environmentMembers_congr hsaid)
  case unsaid =>
    intro env o hresult m hm hs
    exact mem_fields_of_unsaid (ofMembers_eq_ok_iff.mp hresult).1 hm hs

/-- The server of the orders is asked for an hour, and for two and a half seconds at a time. -/
def ordersOptions : Options :=
  { serverUrl := "https://orders.example", workflowTimeout := 3600,
    requestTimeout := some (.ofDecimal false 25 (-1)) }

/-- They are spelled out under their own stem, among other variables; that of the worker is empty. -/
def ordersVariables : Diagnostic.Environment :=
  [("STATEWIRE_WORKER_URL", "https://elsewhere"), ("ORDERS_SERVER_URL", "https://orders.example"),
    ("ORDERS_WORKER_URL", ""), ("ORDERS_REQUEST_TIMEOUT_SECONDS", "2.5"),
    ("ORDERS_DEFAULT_WORKFLOW_TIMEOUT_SECONDS", "3600"), ("NO_COLOR", "1")]

theorem ofVariables_spelled_orders :
    ordersOptions.Sound ∧ ordersOptions.workflowTimeout < (10 ^ Number.digitLimit : Nat) ∧
      Spells "ORDERS_" ordersVariables ordersOptions ∧
      ofVariables "ORDERS_" [("ORDERS_WORKER_URL", "https://worker")] (some ordersVariables) =
        .ok ordersOptions := by
  have hsound : ordersOptions.Sound := by
    refine ⟨by decide, by decide, by decide, ?_⟩
    rintro t ⟨⟩
    exact .finite rfl (by decide +kernel)
  have htimeout : ordersOptions.workflowTimeout < (10 ^ Number.digitLimit : Nat) := by
    change (3600 : Int) < _
    have hpow : 10 ^ 4 ≤ 10 ^ Number.digitLimit := Nat.pow_le_pow_right (by decide) (by decide)
    omega
  have hspells : Spells "ORDERS_" ordersVariables ordersOptions :=
    ⟨.given (by decide +kernel), .left (by decide +kernel), .given (by decide +kernel),
      .given (by decide +kernel)⟩
  exact ⟨hsound, htimeout, hspells, (ofVariables_spelled _ _).1 _ _ hsound htimeout hspells⟩

end WorkflowClient.Options
