import WorkflowClient.Declaration
import WorkflowClient.Payload.Codec
import WorkflowClient.Proofs.TypeExpr.Equality

/-! Histories of descriptors: of equal types, the one that was named first answers for all. -/
namespace WorkflowClient

/-- A descriptor of the type is kept once it has been asked for. -/
def TypeExpr.keepable (Γ : Catalog) : TypeExpr → Bool
  | .any => false
  | T => T.hashable Γ.isFrozen && T.checkable Γ

theorem TypeExpr.keepable_iff {Γ : Catalog} {T : TypeExpr} : T.keepable Γ = true ↔
    T ≠ .any ∧ T.hashable Γ.isFrozen = true ∧ T.checkable Γ = true := by
  by_cases hT : T = .any
  · simp [hT, keepable]
  · cases T <;> first | exact absurd rfl hT | simp [keepable]

namespace Descriptors

/-- What is done with descriptors: they are asked for, alone, for a declaration or to decode a
payload; made without being kept; and forgotten. -/
inductive Event
  | describe (target : Target)
  | declare (part : Diagnostic.Part) (name : String) (target : Target)
  | decode (raw : Option String) (target : Target)
  | build (T : TypeExpr)
  | clear

namespace Event

/-- The descriptors after an event. One that fails leaves them as they are. -/
def apply (Γ : Catalog) (s : Descriptors) : Event → Descriptors
  | describe t => ((s.of? Γ t).map (·.2)).getD s
  | declare part name t => match Declaration.valueType Γ s part name t with
    | .ok r => r.2
    | .error _ => s
  | decode raw t => (Payload.decode Γ s raw t).2
  | build T => ((s.make? Γ T).map (·.2)).getD s
  | clear => s.clear

/-- What a descriptor is asked for. Without a text nothing is decoded. -/
def target? : Event → Option Target
  | describe t | declare _ _ t => some t
  | decode raw t => (Payload.present? raw).map fun _ => t
  | build _ | clear => none

/-- The types named since descriptors were last forgotten, as far as their descriptors are kept. -/
def record (Γ : Catalog) (Ts : List TypeExpr) (e : Event) : List TypeExpr :=
  match e, e.target? with
  | clear, _ => []
  | _, some (.type T) => if T.keepable Γ then Ts ++ [T] else Ts
  | _, _ => Ts

end Event

section
variable (Γ : Catalog)

/-- The descriptors after a history that begins with none. -/
def after (h : List Event) : Descriptors := h.foldl (Event.apply Γ) {}

def named (h : List Event) : List TypeExpr := h.foldl (Event.record Γ) []

/-- The type by which payloads for `T` are decoded after a history: the first that was named of those
that equal it. -/
def standIn (h : List Event) (T : TypeExpr) : TypeExpr :=
  if T.hashable Γ.isFrozen then ((named Γ h).find? (· == T)).getD T else T

end

variable {Γ : Catalog} {s : Descriptors} {T : TypeExpr} {Ts : List TypeExpr}

theorem of?_type (hT : T ≠ .any) (s : Descriptors) : s.of? Γ (.type T) =
    if T.hashable Γ.isFrozen then
      match s.kept.find? fun d => d.type == T with
      | some d => some (d, s)
      | none => (s.make? Γ T).map fun r => (r.1, { r.2 with kept := r.2.kept ++ [r.1] })
    else s.make? Γ T := by
  cases T <;> first | exact absurd rfl hT | rfl

/-- Where nothing is kept for a type, it gets a descriptor of its own. -/
theorem of?_of_absent (hT : T ≠ .any)
    (h : T.hashable Γ.isFrozen = true → (s.kept.find? fun d => d.type == T) = none) :
    (s.of? Γ (.type T)).map (·.1) = if T.checkable Γ then some ⟨s.next, T⟩ else none := by
  rw [of?_type hT]
  by_cases hh : T.hashable Γ.isFrozen = true
  · rw [if_pos hh, h hh]
    cases hc : T.checkable Γ <;> simp [make?, hc]
  · rw [if_neg hh]
    cases hc : T.checkable Γ <;> simp [make?, hc]

/-- The descriptors after one was asked for. -/
def ask (Γ : Catalog) (s : Descriptors) (t : Target) : Descriptors := ((s.of? Γ t).map (·.2)).getD s

theorem ask_of_keepable (hT : T.keepable Γ = true) : (s.ask Γ (.type T)).kept =
    if (s.kept.find? fun d => d.type == T).isSome then s.kept else s.kept ++ [⟨s.next, T⟩] := by
  obtain ⟨hany, hh, hc⟩ := TypeExpr.keepable_iff.mp hT
  rw [ask, of?_type hany, if_pos hh]
  cases s.kept.find? fun d => d.type == T with
  | some d => rfl
  | none => simp [make?, hc]

theorem ask_of_not_keepable (hT : T.keepable Γ = false) : (s.ask Γ (.type T)).kept = s.kept := by
  by_cases hany : T = .any
  · subst hany
    rfl
  · rw [ask, of?_type hany]
    by_cases hh : T.hashable Γ.isFrozen = true
    · have hc : T.checkable Γ = false := by
        cases hc : T.checkable Γ with
        | false => rfl
        | true => exact absurd (TypeExpr.keepable_iff.mpr ⟨hany, hh, hc⟩) (by simp [hT])
      cases s.kept.find? fun d => d.type == T <;> simp [make?, hh, hc]
    · cases hc : T.checkable Γ <;> simp [make?, hh, hc]

/-- Where a type has nothing kept for it, none that equals it from the left has. -/
theorem find?_eq_none_of_equals {U : TypeExpr} (hTU : (T == U) = true)
    (hU : (s.kept.find? fun d => d.type == U) = none) :
    (s.kept.find? fun d => d.type == T) = none := by
  rw [List.find?_eq_none] at hU ⊢
  intro d hd hdT
  exact hU d hd (d.type.equals_trans T U hdT hTU)

/-- The descriptors answer for a type by the first equal one of the list. -/
def Answers (s : Descriptors) (Ts : List TypeExpr) : Prop :=
  ∀ T, (s.kept.find? fun d => d.type == T).map (·.type) = Ts.find? (· == T)

theorem Answers.congr {s' : Descriptors} (h : s.Answers Ts) (hk : s'.kept = s.kept) :
    s'.Answers Ts := fun T => hk ▸ h T

/-- A type is kept unless an equal one is. That one then answers for all that the type equals. -/
theorem Answers.ask (h : s.Answers Ts) (hT : T.keepable Γ = true) :
    (s.ask Γ (.type T)).Answers (Ts ++ [T]) := by
  intro U
  rw [ask_of_keepable hT, List.find?_append, ← h U]
  cases hfind : s.kept.find? fun d => d.type == T with
  | some d =>
    rw [if_pos Option.isSome_some]
    cases hU : s.kept.find? fun d => d.type == U with
    | some e => rfl
    | none =>
      -- `T` must not equal `U` either, since something is kept for it.
      have hTU : (T == U) = false := by
        cases hTU : T == U with
        | false => rfl
        | true =>
          rw [find?_eq_none_of_equals hTU hU] at hfind
          cases hfind
      simp [hTU]
  | none =>
    rw [if_neg (by simp), List.find?_append]
    cases s.kept.find? fun d => d.type == U with
    | some e => rfl
    | none => cases hTU : T == U <;> simp [hTU]

namespace Event

theorem apply_eq_ask {e : Event} {t : Target} (h : e.target? = some t) :
    e.apply Γ s = s.ask Γ t := by
  cases e with
  | describe _ =>
    cases h
    rfl
  | declare _ _ _ =>
    cases h
    simp only [apply, Declaration.valueType, Descriptors.ask]
    cases s.of? Γ t <;> rfl
  | decode raw _ =>
    obtain ⟨text, htext, rfl⟩ := Option.map_eq_some_iff.mp h
    simp only [apply, Payload.decode, htext, Descriptors.ask]
    cases s.of? Γ _ <;> rfl
  | build _ => cases h
  | clear => cases h

/-- Whatever is done, the type named first goes on to answer for those that equal it. -/
theorem answers_apply (h : s.Answers Ts) (e : Event) : (e.apply Γ s).Answers (e.record Γ Ts) := by
  cases ht : e.target? with
  | some t =>
    rw [apply_eq_ask ht]
    have hclear : e ≠ .clear := by
      rintro rfl
      cases ht
    cases t with
    | type T =>
      have hrecord : e.record Γ Ts = if T.keepable Γ then Ts ++ [T] else Ts := by
        cases e <;> simp_all [record]
      rw [hrecord]
      cases hT : T.keepable Γ with
      | true => exact h.ask hT
      | false => exact h.congr (ask_of_not_keepable hT)
    | descriptor d =>
      have hrecord : e.record Γ Ts = Ts := by
        cases e <;> simp_all [record]
      rw [hrecord]
      exact h
  | none =>
    cases e with
    | describe _ => cases ht
    | declare _ _ _ => cases ht
    | decode raw _ =>
      have hraw : Payload.present? raw = none := Option.map_eq_none_iff.mp ht
      simpa [apply, record, target?, Payload.decode, hraw] using h
    | build T =>
      refine h.congr ?_
      simp only [apply, make?]
      cases T.checkable Γ <;> rfl
    | clear => exact fun _ => rfl

end Event

theorem answers_after (h : List Event) : (after Γ h).Answers (named Γ h) := by
  have hrun (s : Descriptors) (Ts : List TypeExpr) (hs : s.Answers Ts) :
      (h.foldl (Event.apply Γ) s).Answers (h.foldl (Event.record Γ) Ts) := by
    induction h generalizing s Ts with
    | nil => exact hs
    | cons e rest ih => exact ih _ _ (Event.answers_apply hs e)
  exact hrun {} [] fun _ => rfl

theorem keepable_of_named (h : List Event) : ∀ T ∈ named Γ h, T.keepable Γ = true := by
  have hrun (Ts : List TypeExpr) (hTs : ∀ T ∈ Ts, T.keepable Γ = true) :
      ∀ T ∈ h.foldl (Event.record Γ) Ts, T.keepable Γ = true := by
    induction h generalizing Ts with
    | nil => exact hTs
    | cons e rest ih =>
      refine ih (e.record Γ Ts) fun T hT => ?_
      unfold Event.record at hT
      split at hT
      · cases hT
      · split at hT
        · rename_i hU
          rcases List.mem_append.mp hT with hmem | hmem
          · exact hTs T hmem
          · exact List.mem_singleton.mp hmem ▸ hU
        · exact hTs T hT
      · exact hTs T hT
  exact hrun [] (by simp)

theorem standIn_eq_of_find? {h : List Event} {d : Descriptor} (hT : T.hashable Γ.isFrozen = true)
    (hd : ((after Γ h).kept.find? fun d => d.type == T) = some d) : standIn Γ h T = d.type := by
  rw [standIn, if_pos hT, ← answers_after h T, hd]
  rfl

theorem keepable_of_find? {h : List Event} {d : Descriptor}
    (hd : ((after Γ h).kept.find? fun d => d.type == T) = some d) : d.type.keepable Γ = true := by
  have hfind := answers_after (Γ := Γ) h T
  rw [hd] at hfind
  exact keepable_of_named h d.type (List.mem_of_find?_eq_some hfind.symm)

theorem standIn_eq_self {h : List Event} (hd : T.hashable Γ.isFrozen = true →
    ((after Γ h).kept.find? fun d => d.type == T) = none) : standIn Γ h T = T := by
  unfold standIn
  split
  · rename_i hT
    rw [← answers_after h T, hd hT]
    rfl
  · rfl

/-- The stand-in is the type itself, or one that equals it and was named before. -/
theorem standIn_cases (h : List Event) (T : TypeExpr) : standIn Γ h T = T ∨
    T.hashable Γ.isFrozen = true ∧ (standIn Γ h T).keepable Γ = true ∧
      (standIn Γ h T == T) = true := by
  unfold standIn
  split
  · rename_i hT
    cases hfind : (named Γ h).find? (· == T) with
    | none => exact .inl rfl
    | some U =>
      refine .inr ⟨hT, ?_, by simpa using List.find?_some hfind⟩
      exact keepable_of_named h U (List.mem_of_find?_eq_some hfind)
  · exact .inl rfl

theorem standIn_of_rigid (h : List Event) (hT : T.rigid = true) : standIn Γ h T = T := by
  rcases standIn_cases (Γ := Γ) h T with heq | ⟨-, -, hequal⟩
  · exact heq
  · exact TypeExpr.eq_of_equals _ T hequal hT

end Descriptors
end WorkflowClient
