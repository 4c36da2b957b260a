import WorkflowClient.Proofs.Validation.Unions

/-! Plain data that fits a type exactly is taken as it stands. -/
namespace WorkflowClient.Validation
open Number Calendar
open Value (Native)

variable {Γ : Catalog} {m : Mode} {T : TypeExpr} {v : Value} {a : Accepted}
  {q : Primitive}

theorem lax_ne_exact {α : Type} {r : Except FaultKind α} {x : α} : lax r ≠ .ok (x, .exact) := by
  intro h
  cases r <;> cases h

theorem exact_of_ofScalar {α : Type} {f : α → Value} {r : Scalar α} (h : ofScalar f r = .ok a)
    (he : a.standing = .exact) : ∃ x, r = .ok (x, .exact) ∧ f x = a.value := by
  cases r with
  | error e => cases h
  | ok p =>
    obtain ⟨x, e⟩ := p
    cases h
    cases he
    exact ⟨x, rfl, rfl⟩

theorem exact_int {n : Int} (hv : Native q v) (h : checkInt m v = .ok (n, .exact)) :
    .int n = v := by
  cases hv with
  | int k => cases h; rfl
  | _ =>
    unfold checkInt at h
    dsimp only at h
    repeat' split at h
    all_goals first | exact absurd h lax_ne_exact | cases h

theorem exact_float {x : Double} (hv : Native q v) (h : checkFloat m v = .ok (x, .exact)) :
    .float x = v := by
  cases hv with
  | float y => cases h; rfl
  | _ =>
    unfold checkFloat at h
    try unfold floatOfInt at h
    dsimp only at h
    repeat' split at h
    all_goals cases h

theorem exact_str {s : String} (hv : Native q v) (h : checkStr m v = .ok (s, .exact)) :
    .str s = v := by
  cases hv with
  | str t => cases h; rfl
  | _ =>
    unfold checkStr at h
    dsimp only at h
    repeat' split at h
    all_goals cases h

theorem exact_bool {b : Bool} (hv : Native q v) (h : checkBool m v = .ok (b, .exact)) :
    .bool b = v := by
  cases hv with
  | bool c => cases h; rfl
  | _ =>
    unfold checkBool at h
    dsimp only at h
    repeat' split at h
    all_goals first | exact absurd h lax_ne_exact | cases h

theorem inexact_bytes {data : List UInt8} (hv : Native q v) :
    checkBytes m v ≠ .ok (data, .exact) := by
  intro h
  cases hv
  all_goals
    cases m <;> cases h

theorem inexact_decimal {d : Decimal} (hv : Native q v) : checkDecimal m v ≠ .ok (d, .exact) := by
  intro h
  cases hv
  all_goals
    unfold checkDecimal at h
    try unfold decimalOfChars at h
    try unfold finiteDecimal at h
    dsimp only at h
    repeat' split at h
    all_goals cases h

theorem inexact_instantOf {t : Instant} (hv : Native q v) : instantOf v ≠ .ok (t, .exact) := by
  intro h
  cases hv
  all_goals
    unfold instantOf at h
    dsimp only at h
    repeat' split at h
    all_goals cases h

theorem inexact_dateOf {d : Date} (hv : Native q v) : dateOf v ≠ .ok (d, .exact) := by
  intro h
  cases hv
  all_goals
    unfold dateOf at h
    dsimp only at h
    repeat' split at h
    all_goals cases h

theorem inexact_instant {t : Instant} (hv : Native q v) : checkInstant m v ≠ .ok (t, .exact) := by
  intro h
  have hof := inexact_instantOf (t := t) hv
  unfold checkInstant at h
  split at h
  · cases hv
  · repeat' split at h
    all_goals cases h
    exact hof ‹_›

theorem inexact_date {d : Date} (hv : Native q v) : checkDate m v ≠ .ok (d, .exact) := by
  intro h
  have hof := inexact_dateOf (d := d) hv
  unfold checkDate at h
  split at h
  · cases hv
  · repeat' split at h
    all_goals cases h
    exact hof ‹_›

theorem inexact_clock {c : Clock} (hv : Native q v) : checkClock m v ≠ .ok (c, .exact) := by
  intro h
  cases hv
  all_goals
    unfold checkClock at h
    try unfold clockOfCount at h
    dsimp only at h
    repeat' split at h
    all_goals cases h

theorem checkPrimitive_exact {p : Primitive} (hp : p ≠ .uuid) (hv : Native q v)
    (h : checkPrimitive m v p = .ok a) (he : a.standing = .exact) : a.value = v := by
  cases p with
  | int =>
    obtain ⟨x, hx, ha⟩ := exact_of_ofScalar h he
    rw [← ha, exact_int hv hx]
  | float =>
    obtain ⟨x, hx, ha⟩ := exact_of_ofScalar h he
    rw [← ha, exact_float hv hx]
  | str =>
    obtain ⟨x, hx, ha⟩ := exact_of_ofScalar h he
    rw [← ha, exact_str hv hx]
  | bool =>
    obtain ⟨x, hx, ha⟩ := exact_of_ofScalar h he
    rw [← ha, exact_bool hv hx]
  | bytes =>
    obtain ⟨x, hx, -⟩ := exact_of_ofScalar h he
    exact absurd hx (inexact_bytes hv)
  | decimal =>
    obtain ⟨x, hx, -⟩ := exact_of_ofScalar h he
    exact absurd hx (inexact_decimal hv)
  | instant =>
    obtain ⟨x, hx, -⟩ := exact_of_ofScalar h he
    exact absurd hx (inexact_instant hv)
  | date =>
    obtain ⟨x, hx, -⟩ := exact_of_ofScalar h he
    exact absurd hx (inexact_date hv)
  | clock =>
    obtain ⟨x, hx, -⟩ := exact_of_ofScalar h he
    exact absurd hx (inexact_clock hv)
  | uuid => exact absurd rfl hp
  | _ => cases hv <;> cases h

/-- A scalar names a member of an enumeration at best, and that is no exact match. -/
theorem inexact_named {cls : String} (hv : Native q v)
    (h : checkNamed Γ m { value := v } cls = .ok a) : a.standing ≠ .exact := by
  unfold checkNamed at h
  split at h
  · cases hv <;> cases h
  · cases hv <;> cases h
  · cases hv <;> cases h
  · cases hv
    all_goals
      unfold checkMember at h
      simp only [Bool.false_eq_true, if_false] at h
      repeat' split at h
    all_goals cases h
    all_goals exact fun he => by cases he
  · cases h
  · cases h

/-- Plain data fits nothing but itself exactly, where no text is an identifier. -/
theorem value_eq_of_exact (hv : Native q v) (hm : m ≠ .lax) (hT : T.modest = true)
    (h : check Γ m { value := v } T = .ok a) (he : a.standing = .exact) : a.value = v := by
  have harray : v.outline? ≠ some .array := by simp [hv.outline?_eq]
  have hobject : v.outline? ≠ some .object := by simp [hv.outline?_eq]
  have hitems {kind : SequenceKind} {U : TypeExpr}
      (h : checkItems Γ m kind { value := v } U = .ok a) : a.value = v := by
    obtain ⟨fs, hfs⟩ := checkItems_refused (Γ := Γ) (s := { value := v }) hm harray kind U
    rw [hfs] at h
    cases h
  have hdict {K U : TypeExpr} (h : checkDict { value := v } K U = .ok a) : a.value = v := by
    obtain ⟨fs, hfs⟩ := checkDict_refused (s := { value := v }) hobject K U
    rw [hfs] at h
    cases h
  cases T with
  | any => cases h; cases he
  | none => cases hv <;> cases h
  | primitive p =>
    cases p with
    | list => exact hitems h
    | set => exact hitems h
    | tuple => exact hitems h
    | dict => exact hdict h
    | uuid => cases hT
    | _ => exact checkPrimitive_exact (by decide) hv h he
  | named cls => exact absurd he (inexact_named hv h)
  | list spelling U => exact hitems h
  | set U => exact hitems h
  | frozenSet U => exact hitems h
  | tupleOf U => exact hitems h
  | tuple Us =>
    obtain ⟨fs, hfs⟩ := checkTuple_refused (Γ := Γ) (s := { value := v }) hm harray Us
    change checkTuple Γ m { value := v } Us = .ok a at h
    rw [hfs] at h
    cases h
  | dict spelling K U => exact hdict h
  | _ => cases hT

theorem checkUnion_gives_native {spelling : Spelling} {Ts : List TypeExpr} (hm : m ≠ .lax)
    (hv : Native q v) (hq : .primitive q ∈ Ts) (h : ∀ T ∈ Ts, T.modest = true) :
    Gives (check Γ m { value := v } (.union spelling Ts)) v := by
  have hexact : check Γ m { value := v } (.primitive q) = .ok ⟨v, .exact⟩ := by
    cases hv <;> rfl
  exact checkUnion_gives_exact hv.ne_none ⟨_, hq, hv.isNull_eq_false, hexact⟩
    fun T hT a ha he => value_eq_of_exact hv hm (h T hT) ha he

end WorkflowClient.Validation
