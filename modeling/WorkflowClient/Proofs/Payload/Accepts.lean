import WorkflowClient.Descriptor
import WorkflowClient.Proofs.Payload.Inhabits
import WorkflowClient.Proofs.Validation.Exactness

/-! Values exactly of a type are accepted as they stand. -/
namespace WorkflowClient
open Validation

variable {Γ : Catalog} {T : TypeExpr} {v : Value}

namespace Validation

theorem answers_gives {items : List Value} {m : Mode} (h : ∀ v ∈ items, Gives (answer Γ m v T) v) :
    List.Forall₂ (fun (a : Answer) v => Gives (a T) v) (answers Γ m items) items := by
  rw [answers_eq_map, List.forall₂_map_left_iff, List.forall₂_same]
  exact h

end Validation

namespace Inhabits

theorem gives_plain {p : Primitive} (h : Plain p v) :
    Gives (answer Γ .strict v (.primitive p)) v := by
  cases h with
  | @decimal d h =>
    refine ⟨.exact, ?_⟩
    change ofScalar .decimal (finiteDecimal d .exact) = _
    rw [finiteDecimal, if_pos h]
    rfl
  | _ => exact ⟨.exact, rfl⟩

theorem gives_member {mixin : Mixin} {cls name : String} {members : List (String × Value)}
    {value : Value} (hb : Γ.body? cls = some (.enumeration mixin members)) :
    Gives (answer Γ .strict (.member mixin cls name value) (.named cls))
      (.member mixin cls name value) := by
  refine ⟨.exact, ?_⟩
  change checkNamed Γ .strict { value := .member mixin cls name value } cls = _
  unfold checkNamed
  rw [hb]
  simp [checkMember]

theorem gives_record {kind : RecordKind} {cls : String} {defs : List FieldDef}
    (values : List (String × Value))
    (hb : (Γ.body? cls).bind ClassBody.record? = some (kind, defs)) :
    Gives (answer Γ .strict (.record kind cls values) (.named cls)) (.record kind cls values) := by
  obtain ⟨body, hbody, hrec⟩ := Option.bind_eq_some_iff.mp hb
  refine ⟨.exact, ?_⟩
  change checkNamed Γ .strict
    { value := .record kind cls values, items := fieldAnswers Γ .strict values } cls = _
  unfold checkNamed
  rw [hbody]
  cases body with
  | model fields extras =>
    cases hrec
    simp [isInstance, Classes.isSubclass]
  | data fields =>
    cases hrec
    simp [isInstance, Classes.isSubclass]
  | namedTuple => cases hrec
  | enumeration => cases hrec
  | plain => cases hrec

theorem gives_namedTuple {cls : String} {defs : List FieldDef} {values : List (String × Value)}
    (hb : Γ.body? cls = some (.namedTuple defs)) (hl : values.map (·.1) = defs.map (·.name))
    (h : ∀ p ∈ values.zip defs, Gives (answer Γ .strict p.1.2 p.2.type) p.1.2) :
    Gives (answer Γ .strict (.record .tuple cls values) (.named cls))
      (.record .tuple cls values) := by
  have hlen : values.length = defs.length := by simpa using congrArg List.length hl
  have hvalues : (values.zip defs).map (·.1) = values := List.map_fst_zip (by omega)
  change Gives (checkNamed Γ .strict
    { value := .record .tuple cls values, items := fieldAnswers Γ .strict values } cls) _
  unfold checkNamed
  rw [hb]
  refine checkPositions_gives hl (by simp [fieldAnswers_eq_map, hlen])
    (zipItems_gives (by simp [hlen]) ?_)
  rw [List.zip_map, List.forall₂_map_left_iff, fieldAnswers_eq_map]
  conv => arg 3; rw [← hvalues]
  rw [List.map_map, List.forall₂_map_right_iff, List.forall₂_same]
  exact h

/-- A value exactly of a type is accepted for it, and is not converted. -/
theorem gives (h : Inhabits Γ T v) : Gives (answer Γ .strict v T) v := by
  induction h with
  | plain h => exact gives_plain h
  | member hb => exact gives_member hb
  | @list spelling T items h ih =>
    change Gives (checkItems Γ .strict .list
      { value := .sequence .list items, items := answers Γ .strict items } T) _
    exact checkItems_gives rfl (by decide) (by decide) (answers_gives ih)
  | @tupleOf T items h ih =>
    change Gives (checkItems Γ .strict .tuple
      { value := .sequence .tuple items, items := answers Γ .strict items } T) _
    exact checkItems_gives rfl (by decide) (by decide) (answers_gives ih)
  | @tuple Ts items hl h ih =>
    change Gives (checkTuple Γ .strict
      { value := .sequence .tuple items, items := answers Γ .strict items } Ts) _
    refine checkTuple_gives rfl ?_ (zipItems_gives hl ?_)
    · rw [answers_eq_map, List.length_map, hl]
    · rw [answers_eq_map, List.forall₂_map_right_iff]
      have hitems : (items.zip Ts).map (·.1) = items := List.map_fst_zip (by omega)
      conv => arg 3; rw [← hitems]
      rw [List.forall₂_map_right_iff, List.forall₂_same]
      exact ih
  | @set T items hs h ih =>
    change Gives (checkItems Γ .strict .set
      { value := .sequence .set items, items := answers Γ .strict items } T) _
    exact checkItems_gives_set rfl hs.hashable hs.distinct (answers_gives ih)
  | @frozenSet T items hs h ih =>
    change Gives (checkItems Γ .strict .frozenSet
      { value := .sequence .frozenSet items, items := answers Γ .strict items } T) _
    exact checkItems_gives_set rfl hs.hashable hs.distinct (answers_gives ih)
  | @dict spelling K T entries hu hk h ih =>
    change Gives (checkDict { value := .dict entries, entries := entryAnswers Γ .strict entries }
      (.primitive K) T) _
    refine checkDict_gives rfl ?_ hu
    rw [entryAnswers_eq_map, List.forall₂_map_left_iff, List.forall₂_same]
    exact fun e he => ⟨gives_plain (hk e he).plain, ih e he⟩
  | @absent spelling Ts h =>
    have hany : Ts.any (·.isNull) = true := List.any_eq_true.mpr ⟨_, h, rfl⟩
    refine ⟨.exact, ?_⟩
    change check Γ .strict { value := .none } (.union spelling Ts) = _
    simp [check, hany, Standing.exact]
  | @present spelling Ts T v hv hT hne h hs ih ihs =>
    have hnull := h.isNull_eq_false hv
    have hothers : ∀ U ∈ Ts, U.isNull = false → Offers (answer Γ .strict v U) v := by
      intro U hU hUnull
      by_cases hf : TypeExpr.Foreign Γ v U
      · exact offers_of_foreign hv hf
      · refine .inl (ihs U hU (fun heq => ?_) hf)
        subst heq
        cases hUnull
    obtain ⟨s, hs, hcheck⟩ := exists_subject Γ .strict v
    simp only [hcheck] at hothers ih ⊢
    exact checkUnion_gives (hs ▸ hv) ⟨T, hT, hnull, ih⟩ hothers
  | @native spelling Ts p v hn hp hT h =>
    have hgives : Gives (check Γ .strict { value := v } (.union spelling Ts)) v :=
      checkUnion_gives_native (by decide) hn hT h
    cases hn <;> exact hgives
  | record hb hn ha hl h ih => exact gives_record _ hb
  | namedTuple hb hl h ih => exact gives_namedTuple hb hl ih
  | @annotated T metadata v h ih =>
    obtain ⟨s, -, hcheck⟩ := exists_subject Γ .strict v
    rw [hcheck] at ih ⊢
    exact ih
  | @descriptor T v h ih =>
    obtain ⟨s, -, hcheck⟩ := exists_subject Γ .strict v
    rw [hcheck] at ih ⊢
    exact ih

end Inhabits

theorem Descriptor.accepts_of_inhabits {d : Descriptor}
    (hΓ : Γ.raised? .strict d.type v = none) (h : Inhabits Γ d.type v) :
    d.accepts Γ v = .ok true := by
  obtain ⟨st, hst⟩ := h.gives
  have hany : d.type ≠ .any := fun hany => by rw [hany] at h; cases h
  unfold Descriptor.accepts
  split
  · rfl
  · rw [examine, hΓ, validate, hst]
    rfl

end WorkflowClient
