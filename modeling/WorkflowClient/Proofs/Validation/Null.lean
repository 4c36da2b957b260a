import WorkflowClient.Proofs.Validation.Unions
import WorkflowClient.Validation.Fault

/-! The null value is accepted in place of nothing else. -/
namespace WorkflowClient

theorem Value.eq_none_of_equals {v : Value} (h : (v == Value.none) = true) : v = .none := by
  change v.equals .none = true at h
  cases v with
  | none => rfl
  | sequence kind items => cases kind <;> simp [equals, tupleItems?, setItems?] at h
  | record kind cls fields => cases kind <;> simp [equals, tupleItems?] at h
  | member mixin cls name value => cases mixin <;> simp [equals, leafEquals, quantity?, text?] at h
  | _ => simp [equals, leafEquals, quantity?, text?] at h

namespace Validation

variable {Γ : Catalog} {m : Mode} {s : Subject} {v : Value} {a : Accepted}

/-- If the outcome is the null value, then that is what was looked at. -/
def NullFrom (v : Value) (r : Outcome) : Prop := ∀ a, r = .ok a → a.value = .none → v = .none

theorem NullFrom.of_refused {r : Outcome} (h : Refused r) : NullFrom v r := by
  obtain ⟨fs, rfl⟩ := h
  rintro a ⟨⟩

theorem NullFrom.of_ne {r : Outcome} (h : ∀ a, r = .ok a → a.value ≠ .none) : NullFrom v r :=
  fun a ha hn => absurd hn (h a ha)

theorem nullFrom_ofScalar {α : Type} {f : α → Value} (hf : ∀ x, f x ≠ .none) (r : Scalar α) :
    NullFrom v (ofScalar f r) := by
  refine .of_ne fun a ha => ?_
  cases r with
  | error k => cases ha
  | ok p =>
    cases ha
    exact hf p.1

theorem nullFrom_checkNothing (v : Value) : NullFrom v (checkNothing v) := by
  rintro a ha -
  cases v <;> first | rfl | cases ha

theorem nullFrom_checkPrimitive (v : Value) (p : Primitive) :
    NullFrom v (checkPrimitive m v p) := by
  cases p <;> first
    | exact nullFrom_checkNothing v
    | exact nullFrom_ofScalar (fun x => by simp) _

theorem nullFrom_checkAny (v : Value) : NullFrom v (checkAny m v) := by
  rintro a ha hn
  cases ha
  dsimp only at hn
  split at hn
  · cases v <;> first | rfl | simp [Value.settled] at hn
  · exact hn

theorem nullFrom_container {kind : SequenceKind} {e : Exactness} (parts : List Accepted) :
    NullFrom v (container Γ kind e parts) := by
  refine .of_ne fun a ha => ?_
  unfold container at ha
  cases kind <;> dsimp only at ha
  all_goals first
    | split at ha
      · cases ha
        simp
      · cases ha
    | cases ha
      simp

theorem NullFrom.bind {α : Type} {x : Checked α} {f : α → Outcome} (h : ∀ y, NullFrom v (f y)) :
    NullFrom v (x.bind f) := by
  cases x with
  | error fs => exact .of_refused ⟨fs, rfl⟩
  | ok y => exact h y

theorem nullFrom_checkItems {kind : SequenceKind} (T : TypeExpr) :
    NullFrom v (checkItems Γ m kind s T) := by
  unfold checkItems
  split
  · exact .of_refused ⟨_, rfl⟩
  · exact .bind fun parts => nullFrom_container parts

theorem nullFrom_checkTuple (Ts : List TypeExpr) : NullFrom v (checkTuple Γ m s Ts) := by
  unfold checkTuple
  split
  · exact .of_refused ⟨_, rfl⟩
  · split
    · exact .of_refused ⟨_, rfl⟩
    · exact .bind fun parts => nullFrom_container parts

theorem nullFrom_map {α : Type} {f : α → Accepted} (hf : ∀ x, (f x).value ≠ .none)
    (x : Checked α) : NullFrom v (x.map f) := by
  refine .of_ne fun a ha => ?_
  obtain ⟨y, -, rfl⟩ := map_eq_ok ha
  exact hf y

theorem nullFrom_both {α β : Type} {f : α → β → Accepted} (hf : ∀ x y, (f x y).value ≠ .none)
    (x : Checked α) (y : Checked β) : NullFrom v (both f x y) := by
  refine .of_ne fun a ha => ?_
  obtain ⟨b, c, -, -, rfl⟩ := both_eq_ok.mp ha
  exact hf b c

theorem nullFrom_checkDict (K T : TypeExpr) : NullFrom v (checkDict s K T) := by
  unfold checkDict
  split
  · exact nullFrom_map (fun _ => by simp) _
  · exact .of_refused ⟨_, rfl⟩

theorem nullFrom_checkMember {cls : String} {mixin : Mixin} {members : List (String × Value)} :
    NullFrom v (checkMember m v cls mixin members) := by
  rintro a ha hn
  unfold checkMember at ha
  extract_lets ofClass at ha
  split at ha
  · cases ha
    exact hn
  · split at ha
    · cases ha
    · split at ha
      · cases ha
        cases hn
      · cases ha

/-- A null among a literal's values is only matched by null. -/
theorem nullFrom_checkLiteral (values : List Value) : NullFrom v (checkLiteral v values) := by
  rintro a ha hn
  unfold checkLiteral at ha
  extract_lets equal at ha
  split at ha
  · rename_i w hfind
    cases ha
    cases hn
    cases hsame : values.find? (TypeExpr.sameLiteral v) with
    | some u =>
      rw [hsame] at hfind
      cases hfind
      have heq := List.find?_some hsame
      simp only [TypeExpr.sameLiteral, Bool.and_eq_true] at heq
      exact Value.eq_none_of_equals heq.2
    | none =>
      rw [hsame] at hfind
      have heq : equal .none = true := List.find?_some hfind
      simp only [equal, Bool.or_false] at heq
      exact Value.eq_none_of_equals heq
  · cases ha

theorem nullFrom_checkRecord {kind : RecordKind} {cls : String} {e : Exactness} {extras : Extras}
    {fields : List FieldDef} {entries : List (Value × Answer × Answer)} :
    NullFrom v (checkRecord kind cls e extras fields entries) :=
  nullFrom_both (fun _ _ => by simp [recordFrom]) _ _

theorem nullFrom_checkNamedTuple {cls : String} {fields : List FieldDef} :
    NullFrom v (checkNamedTuple m cls fields s) := by
  unfold checkNamedTuple checkPositions
  extract_lets fromItems
  split
  · split
    · exact .of_refused ⟨_, rfl⟩
    · exact nullFrom_map (fun _ => by simp) _
  · split
    · split
      · exact .of_refused ⟨_, rfl⟩
      · exact nullFrom_both (fun _ _ => by simp [recordFrom]) _ _
    · exact .of_refused ⟨_, rfl⟩

theorem nullFrom_checkNamed (cls : String) : NullFrom s.value (checkNamed Γ m s cls) := by
  unfold checkNamed
  split
  · split
    · rintro a ⟨⟩ hn
      exact hn
    · split
      · exact nullFrom_checkRecord
      · exact .of_refused ⟨_, rfl⟩
  · split
    · rintro a ⟨⟩ hn
      exact hn
    · split
      · split
        · exact .of_refused ⟨_, rfl⟩
        · exact nullFrom_checkRecord
      · exact .of_refused ⟨_, rfl⟩
  · exact nullFrom_checkNamedTuple
  · exact nullFrom_checkMember
  · exact .of_refused ⟨_, rfl⟩
  · exact .of_refused ⟨_, rfl⟩

theorem mem_of_pickBest {rs : List Outcome} {best : Option Accepted}
    (h : pickBest best rs = some a) : best = some a ∨ .ok a ∈ rs := by
  induction rs generalizing best with
  | nil => exact .inl h
  | cons r rest ih =>
    cases r with
    | error fs => exact (ih h).imp id (List.mem_cons_of_mem _)
    | ok b =>
      have hmore (c : Accepted) (hc : some c = some a ∨ .ok a ∈ rest) (hcb : c = b ∨ best = some c) :
          best = some a ∨ .ok a ∈ .ok b :: rest := by
        rcases hc with hc | hmem
        · cases hc
          rcases hcb with rfl | hbest
          · exact .inr List.mem_cons_self
          · exact .inl hbest
        · exact .inr (List.mem_cons_of_mem _ hmem)
      unfold pickBest at h
      split at h
      · cases h
        exact .inr List.mem_cons_self
      · split at h
        · exact hmore b (ih h) (.inl rfl)
        · rename_i c
          split at h
          · exact hmore b (ih h) (.inl rfl)
          · exact hmore c (ih h) (.inr rfl)

mutual

theorem nullFrom_check : (T : TypeExpr) → NullFrom s.value (check Γ m s T)
  | .any => nullFrom_checkAny s.value
  | .none => nullFrom_checkNothing s.value
  | .primitive p => by
    cases p with
    | list => exact nullFrom_checkItems _
    | set => exact nullFrom_checkItems _
    | tuple => exact nullFrom_checkItems _
    | dict => exact nullFrom_checkDict _ _
    | _ => exact nullFrom_checkPrimitive s.value _
  | .named cls => nullFrom_checkNamed cls
  | .list _ T => nullFrom_checkItems T
  | .set T => nullFrom_checkItems T
  | .frozenSet T => nullFrom_checkItems T
  | .tupleOf T => nullFrom_checkItems T
  | .tuple Ts => nullFrom_checkTuple Ts
  | .dict _ K T => nullFrom_checkDict K T
  | .literal values => nullFrom_checkLiteral values
  | .annotated T _ => nullFrom_check T
  | .descriptor T => nullFrom_check T
  | .union _ Ts => by
    have hmembers := nullFrom_members Ts
    unfold check
    extract_lets null
    split
    · rename_i hnull
      intro a _ _
      cases hv : s.value <;> simp_all [null]
    · split
      · rename_i l r hone
        exact hmembers r (by simp [hone])
      · unfold chooseMember
        split
        · rename_i a hbest
          rintro b ⟨⟩ hn
          rcases mem_of_pickBest hbest with hnone | hmem
          · cases hnone
          · exact hmembers _ hmem a rfl hn
        · exact .of_refused ⟨_, rfl⟩

/-- What a member of a union makes null of is null. -/
theorem nullFrom_members : (Ts : List TypeExpr) →
    ∀ r ∈ (checkMembers Γ m s Ts).map (·.2), NullFrom s.value r
  | [], r, hr => by cases hr
  | T :: rest, r, hr => by
    unfold checkMembers at hr
    split at hr
    · exact nullFrom_members rest r hr
    · rcases List.mem_cons.mp hr with rfl | hmem
      · exact nullFrom_check T
      · exact nullFrom_members rest r hmem

end

/-- Only null is accepted as null. -/
theorem null_of_validate {T : TypeExpr} (h : validate Γ m v T = .ok .none) : v = .none := by
  obtain ⟨s, rfl, hcheck⟩ := exists_subject Γ m v
  obtain ⟨a, ha, hn⟩ := map_eq_ok h
  exact nullFrom_check T a (hcheck T ▸ ha) hn

theorem null_of_examine {T : TypeExpr} (h : examine Γ m v T = .ok .none) : v = .none := by
  unfold examine at h
  split at h
  · cases h
  · cases hv : validate Γ m v T with
    | error fs =>
      rw [hv] at h
      cases h
    | ok w =>
      rw [hv] at h
      cases h
      exact null_of_validate hv

end Validation
end WorkflowClient
