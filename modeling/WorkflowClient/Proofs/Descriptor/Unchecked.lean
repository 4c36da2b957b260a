import WorkflowClient.Proofs.Descriptor.Identity
import WorkflowClient.Proofs.Diagnostic.Causes
import WorkflowClient.Samples.Orders

/-! Types that cannot be checked, and the names under which they are reported: of a type with parts in
brackets only what stands before the brackets, which may be the name of another type. -/
namespace WorkflowClient

namespace TypeExpr

/-- The text of the type has its parts in brackets. -/
def isBracketed : TypeExpr → Bool
  | .list .. | .set _ | .frozenSet _ | .dict .. | .tuple _ | .tupleOf _ => true
  | .union .vocabulary _ | .literal _ | .annotated .. => true
  | _ => false

/-- The class before the brackets, as a type of its own. -/
def container? : TypeExpr → Option Primitive
  | .list .native _ => some .list
  | .set _ => some .set
  | .dict .native _ _ => some .dict
  | .tuple _ | .tupleOf _ => some .tuple
  | _ => Option.none

variable {T : TypeExpr}

theorem mem_bracketed (head : String) (args : List String) :
    '[' ∈ (bracketed head args).toList := by
  simp [bracketed]

theorem name_vocabulary (as : List TypeExpr) :
    ∃ head args, (TypeExpr.union .vocabulary as).name = bracketed head args := by
  -- What is left of the cases are those of a union, with or without the null type.
  unfold name textAs
  split <;> rename_i h <;> cases h <;> exact ⟨_, _, rfl⟩

theorem headName_vocabulary (as : List TypeExpr) :
    (TypeExpr.union .vocabulary as).headName = "Optional" ∨
      (TypeExpr.union .vocabulary as).headName = "Union" := by
  unfold headName
  split <;> simp_all

theorem mem_name (h : T.isBracketed = true) : '[' ∈ T.name.toList := by
  cases T with
  | list s a => cases s <;> exact mem_bracketed _ _
  | dict s k v => cases s <;> exact mem_bracketed _ _
  | set a | frozenSet a | tupleOf a | literal vs | annotated a ms => exact mem_bracketed _ _
  | tuple as =>
    change '[' ∈ (if as.isEmpty then "tuple[()]" else bracketed "tuple" (texts as)).toList
    split
    · decide
    · exact mem_bracketed _ _
  | union s as =>
    cases s with
    | native => cases h
    | vocabulary =>
      obtain ⟨head, args, hname⟩ := name_vocabulary as
      exact hname ▸ mem_bracketed head args
  | any | none | primitive p | named cls | descriptor a => cases h

theorem not_mem_headName (h : T.isBracketed = true) : '[' ∉ T.headName.toList := by
  cases T with
  | list s a => cases s <;> simp [headName]
  | dict s k v => cases s <;> simp [headName]
  | set a | frozenSet a | tuple as | tupleOf a | literal vs | annotated a ms => simp [headName]
  | union s as =>
    cases s with
    | native => cases h
    | vocabulary =>
      rcases headName_vocabulary as with hname | hname <;> simp [hname]
  | any | none | primitive p | named cls | descriptor a => cases h

/-- Types without brackets are reported under their names, and no others are. -/
theorem headName_eq_name_iff (T : TypeExpr) : T.headName = T.name ↔ T.isBracketed = false := by
  cases h : T.isBracketed with
  | true =>
    refine iff_of_false (fun heq => not_mem_headName h ?_) (by simp)
    rw [heq]
    exact mem_name h
  | false =>
    refine iff_of_true ?_ rfl
    cases T with
    | union s as =>
      cases s with
      | native => rfl
      | vocabulary => cases h
    | any | none | primitive p | named cls | descriptor a => rfl
    | _ => cases h

theorem headName_of_container? {p : Primitive} (h : T.container? = some p) :
    T.headName = (TypeExpr.primitive p).name := by
  cases T with
  | list s a | dict s k v =>
    cases s with
    | native =>
      cases h
      rfl
    | vocabulary => cases h
  | set a | tuple as | tupleOf a =>
    cases h
    rfl
  | _ => cases h

end TypeExpr

namespace Descriptors
variable {Γ : Catalog} {T : TypeExpr}

theorem of?_unchecked (h : List Event) (hT : T.checkable Γ = false) :
    (after Γ h).of? Γ (.type T) = none := by
  have hsome := isSome_of? (Γ := Γ) h T
  rw [hT] at hsome
  simpa using hsome

/-- A type that cannot be checked is refused after any history, by a declaration as well as for a
payload, and always under the same name, which both errors show. That is its own name if the type is
written without brackets, and else only what stands before them: the name of another type, which can
be checked, if that is a class of containers. -/
theorem unchecked_reported (h : List Event) (hT : T.checkable Γ = false) :
    (∀ part name, Declaration.valueType Γ (after Γ h) part name (.type T) =
      .error (.unsupportedType part name T.headName)) ∧
    (∀ part name, (Diagnostic.unsupportedType part name T.headName).Shows
      (.unsupportedType part.text name T.headName)) ∧
    (∀ text, text ≠ "" → (Payload.decode Γ (after Γ h) (some text) (.type T)).1.result =
      .error (.noSchema T.headName)) ∧
    (∀ details, ∃ d, (Payload.DecodeFailure.noSchema T.headName).diagnostic? details = some d ∧
      d.Shows (.decodeFailed T.headName details)) ∧
    (T.headName = T.name ↔ T.isBracketed = false) ∧
    ∀ p, T.container? = some p →
      T.headName = (TypeExpr.primitive p).name ∧ (TypeExpr.primitive p).checkable Γ = true := by
  have hof := of?_unchecked h hT
  refine ⟨fun part name => ?_, fun part name => Diagnostic.shows_unsupportedType ..,
    fun text htext => ?_, fun details => ⟨_, rfl, Diagnostic.shows_decodeFailed ..⟩,
    T.headName_eq_name_iff, fun p hp => ?_⟩
  · rw [Declaration.valueType, hof]
    rfl
  · have hpresent : Payload.present? (some text) = some text := by
      simp [Payload.present?, htext]
    simp only [Payload.decode, hpresent, hof]
    rfl
  · exact ⟨TypeExpr.headName_of_container? hp, rfl⟩

/-- Lists of a class that nothing is known about. -/
def opaques : TypeExpr := .list .native (.named "Opaque")

theorem unchecked_reported_opaques : opaques.checkable Samples.Orders.catalog = false ∧
    (Payload.decode Samples.Orders.catalog (after Samples.Orders.catalog [.describe (.type opaques)])
      (some "[]") (.type opaques)).1.result = .error (.noSchema opaques.headName) := by
  have hT : opaques.checkable Samples.Orders.catalog = false := by decide
  exact ⟨hT, (unchecked_reported [.describe (.type opaques)] hT).2.2.1 "[]" (by decide)⟩

/-- They are reported as lists, which can be checked and have another name. -/
theorem opaques_reported_as_list :
    opaques.checkable Samples.Orders.catalog = false ∧
      Declaration.valueType Samples.Orders.catalog {} .channel "hold" (.type opaques) =
        .error (.unsupportedType .channel "hold" (TypeExpr.primitive .list).name) ∧
      (Payload.decode Samples.Orders.catalog {} (some "[]") (.type opaques)).1.result =
        .error (.noSchema (TypeExpr.primitive .list).name) ∧
      (TypeExpr.primitive .list).checkable Samples.Orders.catalog = true ∧
      (TypeExpr.primitive .list).name ≠ opaques.name :=
  ⟨by decide, rfl, rfl, rfl, by decide⟩

end Descriptors
end WorkflowClient
