import Mathlib.Data.Nat.Basic
import Mathlib.Order.Basic
import WorkflowClient.Proofs.Descriptor.History
import WorkflowClient.Proofs.TypeExpr.Symmetric
import WorkflowClient.Samples.Orders

/-! Identity of descriptors: over any history a type is given the very descriptor that the earliest
equal type was given, or a new one. -/
namespace WorkflowClient.Descriptors

namespace Event

/-- The type that a descriptor is asked or made for. -/
def type? : Event → Option TypeExpr
  | build T => some T
  | e => match e.target? with
    | some (.type T) => some T
    | _ => none

/-- The descriptor that an event gives for a type. -/
def given? (Γ : Catalog) (s : Descriptors) : Event → Option Descriptor
  | build T => (s.make? Γ T).map (·.1)
  | e => e.type?.bind fun T => (s.of? Γ (.type T)).map (·.1)

/-- What was given for a type, if the type can be a key. What is made without being asked for does
not count. -/
def entry? (Γ : Catalog) (s : Descriptors) (e : Event) : Option (TypeExpr × Descriptor) :=
  match e.target? with
  | some (.type T) => if T.keepable Γ then (s.of? Γ (.type T)).map fun r => (T, r.1) else none
  | _ => none

/-- The descriptors after an event, with an account of what was given since they were forgotten. -/
def enter (Γ : Catalog) (a : Descriptors × List (TypeExpr × Descriptor)) (e : Event) :
    Descriptors × List (TypeExpr × Descriptor) :=
  (e.apply Γ a.1, match e with
    | clear => []
    | e => a.2 ++ (e.entry? Γ a.1).toList)

end Event

/-- What was given for types that can be keys since descriptors were last forgotten, the earliest
first. -/
def given (Γ : Catalog) (h : List Event) : List (TypeExpr × Descriptor) :=
  (h.foldl (Event.enter Γ) ({}, [])).2

variable {Γ : Catalog} {s s' s'' : Descriptors} {T U : TypeExpr} {d d' : Descriptor} {e : Event}

/-- What a type can be given: the descriptor of anything, one that is kept, or a new one. -/
theorem of?_cases (h : s.of? Γ (.type T) = some (d, s')) :
    T = .any ∧ d = .any ∧ s' = s ∨
    d ∈ s.kept ∧ (d.type == T) = true ∧ s' = s ∨
    d = ⟨s.next, T⟩ ∧ s'.next = s.next + 1 ∧ (s'.kept = s.kept ∨ s'.kept = s.kept ++ [d]) := by
  by_cases hany : T = .any
  · subst hany
    cases h
    exact .inl ⟨rfl, rfl, rfl⟩
  rw [of?_type hany] at h
  split at h
  · split at h
    · rename_i k hfind
      cases h
      exact .inr (.inl ⟨List.mem_of_find?_eq_some hfind, by simpa using List.find?_some hfind, rfl⟩)
    · obtain ⟨r, hr, heq⟩ := Option.map_eq_some_iff.mp h
      simp only [make?, Option.ite_none_right_eq_some, Option.some.injEq] at hr
      obtain ⟨-, rfl⟩ := hr
      cases heq
      exact .inr (.inr ⟨rfl, rfl, .inr rfl⟩)
  · simp only [make?, Option.ite_none_right_eq_some, Option.some.injEq] at h
    obtain ⟨-, h⟩ := h
    cases h
    exact .inr (.inr ⟨rfl, rfl, .inl rfl⟩)

theorem of?_of_keepable (hT : T.keepable Γ = true) : (s.of? Γ (.type T)).map (·.1) =
    some ((s.kept.find? fun d => d.type == T).getD ⟨s.next, T⟩) := by
  obtain ⟨hany, hh, hc⟩ := TypeExpr.keepable_iff.mp hT
  rw [of?_type hany, if_pos hh]
  cases s.kept.find? fun d => d.type == T with
  | some d => rfl
  | none => simp [make?, hc]

/-- Numbers are used once: what is kept was kept before, or has a number that was free. -/
structure Grows (s s' : Descriptors) : Prop where
  next_le : s.next ≤ s'.next
  kept : ∀ d ∈ s'.kept, d ∈ s.kept ∨ s.next ≤ d.id ∧ d.id < s'.next

theorem Grows.refl (s : Descriptors) : Grows s s := ⟨Nat.le_refl _, fun _ => .inl⟩

theorem Grows.trans (h : Grows s s') (h' : Grows s' s'') : Grows s s'' := by
  refine ⟨h.next_le.trans h'.next_le, fun d hd => ?_⟩
  rcases h'.kept d hd with hd | ⟨hle, hlt⟩
  · rcases h.kept d hd with hd | ⟨hle, hlt⟩
    · exact .inl hd
    · exact .inr ⟨hle, hlt.trans_le h'.next_le⟩
  · exact .inr ⟨h.next_le.trans hle, hlt⟩

theorem grows_clear (s : Descriptors) : Grows s s.clear :=
  ⟨Nat.le_refl _, fun _ hd => absurd hd List.not_mem_nil⟩

theorem grows_of? (h : s.of? Γ (.type T) = some (d, s')) : Grows s s' := by
  obtain ⟨-, -, rfl⟩ | ⟨-, -, rfl⟩ | ⟨rfl, hnext, hkept⟩ := of?_cases h
  · exact .refl _
  · exact .refl _
  · refine ⟨by omega, fun k hk => ?_⟩
    rcases hkept with hkept | hkept
    · exact .inl (hkept ▸ hk)
    · rw [hkept, List.mem_append, List.mem_singleton] at hk
      refine hk.imp id fun hk => ?_
      subst hk
      exact ⟨Nat.le_refl _, by simp [hnext]⟩

theorem make?_eq_some (h : s.make? Γ T = some (d, s')) :
    d = ⟨s.next, T⟩ ∧ s'.next = s.next + 1 ∧ s'.kept = s.kept := by
  simp only [make?, Option.ite_none_right_eq_some, Option.some.injEq] at h
  obtain ⟨-, h⟩ := h
  cases h
  exact ⟨rfl, rfl, rfl⟩

/-- What an event does: it makes a descriptor, asks for one, forgets them all, or nothing. -/
theorem Event.apply_cases (e : Event) (s : Descriptors) :
    e = .clear ∨ e.given? Γ s = none ∧ e.apply Γ s = s ∨
    ∃ T d, e.type? = some T ∧ e.given? Γ s = some d ∧
      (e = .build T ∧ s.make? Γ T = some (d, e.apply Γ s) ∨
        e.target? = some (.type T) ∧ s.of? Γ (.type T) = some (d, e.apply Γ s)) := by
  by_cases hclear : e = .clear
  · exact .inl hclear
  right
  cases ht : e.target? with
  | some t =>
    rw [apply_eq_ask ht, Descriptors.ask]
    have hbuild (T : TypeExpr) : e ≠ .build T := by
      rintro rfl
      cases ht
    cases t with
    | descriptor d =>
      left
      cases e <;> simp_all [given?, type?, of?]
    | type T =>
      have htype : e.type? = some T := by
        cases e <;> simp_all [type?]
      have hgiven : e.given? Γ s = (s.of? Γ (.type T)).map (·.1) := by
        cases e <;> simp_all [given?]
      rw [hgiven, htype]
      cases hof : s.of? Γ (.type T) with
      | none => exact .inl ⟨rfl, rfl⟩
      | some r => exact .inr ⟨T, r.1, rfl, rfl, .inr ⟨rfl, hof⟩⟩
  | none =>
    cases e with
    | describe _ => cases ht
    | declare _ _ _ => cases ht
    | decode raw _ =>
      have hraw : Payload.present? raw = none := Option.map_eq_none_iff.mp ht
      left
      simp [given?, type?, apply, target?, Payload.decode, hraw]
    | build T =>
      cases hmake : s.make? Γ T with
      | none => exact .inl (by simp [given?, apply, hmake])
      | some r => exact .inr ⟨T, r.1, rfl, by simp [given?, hmake], .inl (by simp [apply, hmake])⟩
    | clear => exact absurd rfl hclear

theorem grows_apply (e : Event) (s : Descriptors) : Grows s (e.apply Γ s) := by
  obtain rfl | ⟨-, heq⟩ | ⟨T, d, -, -, ⟨-, hmake⟩ | ⟨-, hof⟩⟩ := e.apply_cases (Γ := Γ) s
  · exact grows_clear s
  · rw [heq]
    exact .refl s
  · obtain ⟨-, hnext, hkept⟩ := make?_eq_some hmake
    exact ⟨by omega, fun k hk => .inl (hkept ▸ hk)⟩
  · exact grows_of? hof

theorem grows_run (h : List Event) (s : Descriptors) : Grows s (h.foldl (Event.apply Γ) s) := by
  induction h generalizing s with
  | nil => exact .refl s
  | cons e rest ih => exact (grows_apply e s).trans (ih _)

theorem after_append (h h' : List Event) :
    after Γ (h ++ h') = h'.foldl (Event.apply Γ) (after Γ h) := List.foldl_append

/-- The numbers of what is kept lie between that of the descriptor of anything and the next one. -/
theorem grows_after (h : List Event) : Grows {} (after Γ h) := grows_run h {}

theorem id_lt_of_given (h : List Event) (hd : e.given? Γ (after Γ h) = some d) :
    d.id < (e.apply Γ (after Γ h)).next := by
  have hfirst := (grows_after (Γ := Γ) h).next_le
  obtain rfl | ⟨hnone, -⟩ | ⟨T, k, -, hk, hcase⟩ := e.apply_cases (Γ := Γ) (after Γ h)
  · cases hd
  · rw [hnone] at hd
    cases hd
  rw [hk] at hd
  cases hd
  rcases hcase with ⟨-, hmake⟩ | ⟨-, hof⟩
  · obtain ⟨rfl, hnext, -⟩ := make?_eq_some hmake
    simp [hnext]
  · obtain ⟨-, rfl, heq⟩ | ⟨hmem, -, heq⟩ | ⟨rfl, hnext, -⟩ := of?_cases hof
    · rw [heq]
      exact hfirst
    · rw [heq]
      obtain hmem | ⟨-, hlt⟩ := (grows_after h).kept d hmem
      · cases hmem
      · exact hlt
    · simp [hnext]

/-- A descriptor given for a type later is not one that had a number, and was not kept, before. -/
theorem of?_id_cases (hof : s'.of? Γ (.type T) = some (d, s'')) (hgrows : Grows s s') :
    T = .any ∧ d = .any ∨ d ∈ s.kept ∨ s.next ≤ d.id := by
  obtain ⟨rfl, rfl, -⟩ | ⟨hmem, -, -⟩ | ⟨rfl, -, -⟩ := of?_cases hof
  · exact .inl ⟨rfl, rfl⟩
  · obtain hmem | ⟨hle, -⟩ := hgrows.kept d hmem
    · exact .inr (.inl hmem)
    · exact .inr (.inr hle)
  · exact .inr (.inr hgrows.next_le)

/-- What is made is never kept, so no type is given it. -/
theorem id_ne_of_made {h h' : List Event} (hmake : (after Γ h).make? Γ T = some (d, s'))
    (hof : (after Γ (h ++ .build T :: h')).of? Γ (.type U) = some (d', s'')) : d'.id ≠ d.id := by
  have hfirst := (grows_after (Γ := Γ) h).next_le
  have happly : (Event.build T).apply Γ (after Γ h) = s' := by simp [Event.apply, hmake]
  obtain ⟨rfl, hnext, hkept⟩ := make?_eq_some hmake
  rw [after_append, List.foldl_cons, happly] at hof
  obtain ⟨-, rfl⟩ | hmem | hle := of?_id_cases hof (grows_run h' s')
  · exact Nat.ne_of_lt hfirst
  · rw [hkept] at hmem
    obtain hmem | ⟨-, hlt⟩ := (grows_after h).kept d' hmem
    · cases hmem
    · exact Nat.ne_of_lt hlt
  · rw [hnext] at hle
    exact Nat.ne_of_gt hle

/-- What is given for a type after descriptors were forgotten was not given for one before. -/
theorem id_ne_of_forgotten {h h' : List Event} (hd : e.given? Γ (after Γ h) = some d)
    (hclear : .clear ∈ h') (hU : U ≠ .any)
    (hof : (after Γ (h ++ e :: h')).of? Γ (.type U) = some (d', s'')) : d.id ≠ d'.id := by
  have hlt := id_lt_of_given h hd
  obtain ⟨before, rest, rfl⟩ := List.append_of_mem hclear
  have hsplit : after Γ (h ++ e :: (before ++ .clear :: rest)) = rest.foldl (Event.apply Γ)
      (before.foldl (Event.apply Γ) (e.apply Γ (after Γ h))).clear := by
    rw [after_append, List.foldl_cons, List.foldl_append]
    rfl
  have hle := (grows_run (Γ := Γ) before (e.apply Γ (after Γ h))).next_le
  rw [hsplit] at hof
  obtain ⟨rfl, -⟩ | hmem | hge := of?_id_cases hof (grows_run rest _)
  · exact absurd rfl hU
  · cases hmem
  · exact Nat.ne_of_lt (hlt.trans_le (hle.trans hge))

/-- An event that gives nothing for a type leaves everything as it was. -/
theorem after_of_not_given {h h' : List Event} (hclear : e ≠ .clear)
    (hnone : e.given? Γ (after Γ h) = none) : after Γ (h ++ e :: h') = after Γ (h ++ h') := by
  obtain hc | ⟨-, heq⟩ | ⟨T, d, -, hd, -⟩ := e.apply_cases (Γ := Γ) (after Γ h)
  · exact absurd hc hclear
  · rw [after_append, after_append, List.foldl_cons, heq]
  · rw [hnone] at hd
    cases hd

/-- What is kept was given for a type that was named. -/
theorem type_of_kept (h : List Event) (hd : d ∈ (after Γ h).kept) :
    ∃ e ∈ h, e.type? = some d.type := by
  have hrun (l : List Event) (s : Descriptors) (hd : d ∈ (l.foldl (Event.apply Γ) s).kept) :
      d ∈ s.kept ∨ ∃ e ∈ l, e.type? = some d.type := by
    induction l generalizing s with
    | nil => exact .inl hd
    | cons e rest ih =>
      obtain hd | ⟨x, hx, htype⟩ := ih (e.apply Γ s) hd
      · obtain rfl | ⟨-, heq⟩ | ⟨T, k, htype, -, ⟨-, hmake⟩ | ⟨-, hof⟩⟩ := e.apply_cases (Γ := Γ) s
        · cases hd
        · exact .inl (heq ▸ hd)
        · exact .inl ((make?_eq_some hmake).2.2 ▸ hd)
        · obtain ⟨-, -, heq⟩ | ⟨-, -, heq⟩ | ⟨hk, -, hkept | hkept⟩ := of?_cases hof
          · exact .inl (heq ▸ hd)
          · exact .inl (heq ▸ hd)
          · exact .inl (hkept ▸ hd)
          · rw [hkept, List.mem_append, List.mem_singleton] at hd
            refine hd.imp id fun hd => ⟨e, List.mem_cons_self, ?_⟩
            rw [hd, hk, htype]
      · exact .inr ⟨x, List.mem_cons_of_mem e hx, htype⟩
  exact (hrun h {} hd).resolve_left List.not_mem_nil

/-- The descriptors are those of the account: what is kept for a type is what the earliest equal one
was given. -/
def Accounts (s : Descriptors) (given : List (TypeExpr × Descriptor)) : Prop :=
  ∀ T, (s.kept.find? fun d => d.type == T) = (given.find? fun p => p.1 == T).map (·.2)

variable {L : List (TypeExpr × Descriptor)}

theorem Accounts.congr (h : s.Accounts L) (hk : s'.kept = s.kept) : s'.Accounts L :=
  fun T => hk ▸ h T

theorem Accounts.ask (h : s.Accounts L) (hT : T.keepable Γ = true) : (s.ask Γ (.type T)).Accounts
    (L ++ [(T, (s.kept.find? fun d => d.type == T).getD ⟨s.next, T⟩)]) := by
  intro U
  rw [ask_of_keepable hT, List.find?_append]
  cases hU : s.kept.find? fun d => d.type == U with
  | some k =>
    -- An earlier entry answers for `U`, whatever is added.
    obtain ⟨p, hp, rfl⟩ := Option.map_eq_some_iff.mp ((h U).symm.trans hU)
    rw [hp]
    split
    · rw [hU]
      rfl
    · rw [List.find?_append, hU]
      rfl
  | none =>
    have hL : (L.find? fun p => p.1 == U) = none := Option.map_eq_none_iff.mp ((h U).symm.trans hU)
    rw [hL, Option.none_or]
    cases hTU : T == U with
    | true => simp [find?_eq_none_of_equals hTU hU, hU, hTU]
    | false => split <;> simp [hU, hTU]

/-- Whatever is done, the account stays right. -/
theorem accounts_enter (h : s.Accounts L) (e : Event) :
    (e.enter Γ (s, L)).1.Accounts (e.enter Γ (s, L)).2 := by
  have happly : (e.enter Γ (s, L)).1 = e.apply Γ s := rfl
  by_cases hclear : e = .clear
  · subst hclear
    exact fun T => rfl
  have hentries : (e.enter Γ (s, L)).2 = L ++ (e.entry? Γ s).toList := by
    cases e <;> first | rfl | exact absurd rfl hclear
  rw [hentries, happly]
  cases ht : e.target? with
  | some t =>
    rw [Event.apply_eq_ask ht]
    cases t with
    | descriptor d =>
      have hentry : e.entry? Γ s = none := by simp [Event.entry?, ht]
      rw [hentry, Option.toList_none, List.append_nil]
      exact h
    | type T =>
      cases hT : T.keepable Γ with
      | true =>
        have hentry : e.entry? Γ s =
            some (T, (s.kept.find? fun d => d.type == T).getD ⟨s.next, T⟩) := by
          obtain ⟨r, hr, heq⟩ := Option.map_eq_some_iff.mp (of?_of_keepable (s := s) hT)
          simp [Event.entry?, ht, hT, hr, heq]
        rw [hentry]
        exact h.ask hT
      | false =>
        simpa [Event.entry?, ht, hT] using h.congr (ask_of_not_keepable hT)
  | none =>
    have hentry : e.entry? Γ s = none := by simp [Event.entry?, ht]
    rw [hentry, Option.toList_none, List.append_nil]
    obtain hc | ⟨-, heq⟩ | ⟨T, d, -, -, ⟨rfl, hmake⟩ | ⟨htarget, -⟩⟩ := e.apply_cases (Γ := Γ) s
    · exact absurd hc hclear
    · rwa [heq]
    · exact h.congr (make?_eq_some hmake).2.2
    · rw [ht] at htarget
      cases htarget

theorem accounts_after (h : List Event) : (after Γ h).Accounts (given Γ h) := by
  have hrun (a : Descriptors × List (TypeExpr × Descriptor)) (ha : a.1.Accounts a.2) :
      (h.foldl (Event.apply Γ) a.1).Accounts (h.foldl (Event.enter Γ) a).2 := by
    induction h generalizing a with
    | nil => exact ha
    | cons e rest ih => exact ih (e.enter Γ a) (accounts_enter ha e)
  exact hrun ({}, []) fun _ => rfl

/-- What a type is given is of that type or of one that equals it and was named before. -/
theorem type_of_given (h : List Event) (hof : (after Γ h).of? Γ (.type T) = some (d, s')) :
    d.type = T ∨ (d.type == T) = true ∧ ∃ e ∈ h, e.type? = some d.type := by
  obtain ⟨rfl, rfl, -⟩ | ⟨hmem, heq, -⟩ | ⟨rfl, -, -⟩ := of?_cases hof
  · exact .inl rfl
  · exact .inr ⟨heq, type_of_kept h hmem⟩
  · exact .inl rfl

/-- Equal types are given equal descriptors, at any two times. -/
theorem equals_of_given {h h' : List Event} (hTU : (T == U) = true)
    (hd : (after Γ h).of? Γ (.type T) = some (d, s') ∨ d.type = T)
    (hd' : (after Γ h').of? Γ (.type U) = some (d', s''))
    (hsets : ∀ e ∈ h', ∀ V, e.type? = some V → V.unrepeating = true) : d.equals d' = true := by
  have hdU : (d.type == U) = true := by
    rcases hd with hd | rfl
    · rcases type_of_given h hd with rfl | ⟨hdT, -⟩
      · exact hTU
      · exact d.type.equals_trans T U hdT hTU
    · exact hTU
  rcases type_of_given h' hd' with rfl | ⟨hdU', e, he, htype⟩
  · exact hdU
  · have hUd : (U == d'.type) = true := d'.type.equals_symm U hdU' (hsets e he d'.type htype)
    exact d.type.equals_trans U d'.type hdU hUd

/-- Only types that can be checked are given anything, and all of them are. -/
theorem isSome_of? (h : List Event) (T : TypeExpr) :
    ((after Γ h).of? Γ (.type T)).isSome = T.checkable Γ := by
  by_cases hany : T = .any
  · subst hany
    rfl
  · cases hfind : (after Γ h).kept.find? fun d => d.type == T with
    | none =>
      rw [← Option.isSome_map (f := (·.1)), of?_of_absent hany fun _ => hfind]
      cases T.checkable Γ <;> rfl
    | some d =>
      have hd := (TypeExpr.keepable_iff.mp (keepable_of_find? hfind)).2.2
      have hdT : (d.type == T) = true := by simpa using List.find?_some hfind
      have heq : d.type.checkable Γ = T.checkable Γ := d.type.checkable_eq_of_equals T hdT
      rw [← heq, hd, of?_type hany, hfind]
      split
      · rfl
      · simp [make?, ← heq, hd]

/-- Which descriptor a target is given after a history. -/
structure Identity (Γ : Catalog) (h : List Event) : Prop where
  /-- A descriptor is its own. -/
  self : ∀ d, (after Γ h).of? Γ (.descriptor d) = some (d, after Γ h)
  any : (after Γ h).of? Γ (.type .any) = some (.any, after Γ h)
  /-- A type that can be a key is given what the earliest equal one was given since descriptors were
  last forgotten. If there was none, it gets a new descriptor, of just this type. -/
  earliest : ∀ T, T.keepable Γ = true → ((after Γ h).of? Γ (.type T)).map (·.1) =
    some ((((given Γ h).find? fun p => p.1 == T).map (·.2)).getD ⟨(after Γ h).next, T⟩)
  unhashable : ∀ T, T.hashable Γ.isFrozen = false → T.checkable Γ = true →
    ((after Γ h).of? Γ (.type T)).map (·.1) = some ⟨(after Γ h).next, T⟩
  made : ∀ T, T.checkable Γ = true →
    ((after Γ h).make? Γ T).map (·.1) = some ⟨(after Γ h).next, T⟩
  /-- The next number is new: whatever was given before has a smaller one. -/
  new : Descriptor.any.id < (after Γ h).next ∧ ∀ h₁ e h₂ d, h = h₁ ++ e :: h₂ →
    e.given? Γ (after Γ h₁) = some d → d.id < (after Γ h).next
  unkept : ∀ h₁ T h₂ d U d' s, h = h₁ ++ .build T :: h₂ →
    (Event.build T).given? Γ (after Γ h₁) = some d →
    (after Γ h).of? Γ (.type U) = some (d', s) → d'.same d = false
  refused : ∀ T, T.checkable Γ = false →
    (after Γ h).of? Γ (.type T) = none ∧ (after Γ h).make? Γ T = none
  /-- An event that gives nothing might as well not have happened. -/
  traceless : ∀ h₁ e h₂, h = h₁ ++ e :: h₂ → e ≠ .clear → e.given? Γ (after Γ h₁) = none →
    after Γ h = after Γ (h₁ ++ h₂)
  /-- What equal types were given before and after descriptors were forgotten is equal, and not the
  same. (Equality is symmetric as long as no set in an annotation lists an item twice.) -/
  forgotten : ∀ h₁ e h₂ T U d d' s, h = h₁ ++ e :: h₂ → .clear ∈ h₂ → e.type? = some T →
    e.given? Γ (after Γ h₁) = some d → T ≠ .any → (T == U) = true →
    (after Γ h).of? Γ (.type U) = some (d', s) →
    (∀ x ∈ h, ∀ V, x.type? = some V → V.unrepeating = true) →
    d.equals d' = true ∧ d.same d' = false

/-- Two spellings of one union. -/
def intOrStr : TypeExpr := .union .vocabulary [.primitive .int, .primitive .str]

def strOrInt : TypeExpr := .union .vocabulary [.primitive .str, .primitive .int]

/-- An integer with a note that can be a key, and with an equal note that cannot. -/
def noted (kind : SequenceKind) : TypeExpr :=
  .annotated (.primitive .int) [.sequence kind [.int 1]]

end WorkflowClient.Descriptors
