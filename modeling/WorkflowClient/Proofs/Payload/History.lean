import WorkflowClient.Proofs.Descriptor.History
import WorkflowClient.Proofs.Payload.RoundTrip
import WorkflowClient.Samples.Orders

/-! What earlier events change about a decoding: a type that was named before may be put in place of
the target, if the two are equal. -/
namespace WorkflowClient.Payload
open Descriptors (Event after named standIn)

variable {Γ : Catalog} {T U : TypeExpr}

/-- What a caller learns of a failure: the name of the target, or what a check of the application
raised. -/
def DecodeFailure.told : DecodeFailure → String ⊕ Raised
  | .noSchema target | .invalid target _ => .inl target
  | .raised e => .inr e

/-- What becomes of a decoding: the value, or what is told of the failure. -/
def Decoded.outcome (d : Decoded) : Except (String ⊕ Raised) Value :=
  d.result.mapError DecodeFailure.told

/-- Decoding by a descriptor depends on its type alone. -/
theorem decodeText_congr {d e : Descriptor} (h : d.type = e.type) (text : String) :
    decodeText Γ d text = decodeText Γ e text := by
  simp only [decodeText, Descriptor.name, h]

theorem decode_text {raw : Option String} {text : String} (h : present? raw = some text)
    (s : Descriptors) : (decode Γ s raw (.type T)).1 =
      match (s.of? Γ (.type T)).map (·.1) with
      | some d => decodeText Γ d text
      | none => ⟨.error (.noSchema T.headName), []⟩ := by
  rw [decode, h]
  dsimp only
  cases s.of? Γ (.type T) <;> rfl

/-- After a history a payload is decoded as its stand-in is without one. -/
theorem decode_standIn (h : List Event) (raw : Option String) (T : TypeExpr) :
    (decode Γ (after Γ h) raw (.type T)).1 = (decode Γ {} raw (.type (standIn Γ h T))).1 := by
  cases hraw : present? raw with
  | none => simp [decode, hraw]
  | some text =>
    rw [decode_text hraw, decode_text hraw]
    by_cases hany : T = .any
    · subst hany
      rw [Descriptors.standIn_of_rigid h rfl]
      rfl
    · by_cases hkept : T.hashable Γ.isFrozen = true ∧
          ∃ d, ((after Γ h).kept.find? fun d => d.type == T) = some d
      · obtain ⟨hT, d, hd⟩ := hkept
        obtain ⟨hdany, -, hdc⟩ := TypeExpr.keepable_iff.mp (Descriptors.keepable_of_find? hd)
        rw [Descriptors.standIn_eq_of_find? hT hd, Descriptors.of?_type hany, if_pos hT, hd,
          Descriptors.of?_of_absent hdany fun _ => rfl, if_pos hdc]
        exact decodeText_congr rfl text
      · have habsent : T.hashable Γ.isFrozen = true →
            ((after Γ h).kept.find? fun d => d.type == T) = none := fun hT =>
          Option.eq_none_iff_forall_ne_some.mpr fun d hd => hkept ⟨hT, d, hd⟩
        rw [Descriptors.standIn_eq_self habsent, Descriptors.of?_of_absent hany habsent,
          Descriptors.of?_of_absent hany fun _ => rfl]
        cases T.checkable Γ with
        | true => exact decodeText_congr rfl text
        | false => rfl

/-- Of the types that equal a target, the first that was named since descriptors were last forgotten
decides how payloads for the target are decoded. So a decoding depends on no history if and only if
it comes out the same for all types that equal the target; and where no other type does, there is
nothing to depend on. -/
theorem decode_after (raw : Option String) (T : TypeExpr) :
    (∀ h, (decode Γ (after Γ h) raw (.type T)).1 =
      (decode Γ {} raw (.type (standIn Γ h T))).1) ∧
    ((∀ h, (decode Γ (after Γ h) raw (.type T)).1.outcome =
        (decode Γ {} raw (.type T)).1.outcome) ↔
      (T.hashable Γ.isFrozen = true → ∀ U : TypeExpr, U.keepable Γ = true → (U == T) = true →
        (decode Γ {} raw (.type U)).1.outcome = (decode Γ {} raw (.type T)).1.outcome)) ∧
    (T.rigid = true → ∀ h, (decode Γ (after Γ h) raw (.type T)).1 =
      (decode Γ {} raw (.type T)).1) := by
  refine ⟨fun h => decode_standIn h raw T, ⟨fun hall hT U hU hUT => ?_, fun heq h => ?_⟩,
    fun hT h => ?_⟩
  · -- One event is enough to put `U` in the place of `T`.
    have hstand : standIn Γ [.describe (.type U)] T = U := by
      have hnamed : named Γ [.describe (.type U)] = [U] := if_pos hU
      simp [standIn, hnamed, hT, hUT]
    rw [← hall [.describe (.type U)], decode_standIn, hstand]
  · rw [decode_standIn]
    rcases Descriptors.standIn_cases (Γ := Γ) h T with hself | ⟨hT, hU, hUT⟩
    · rw [hself]
    · exact heq hT _ hU hUT
  · rw [decode_standIn, Descriptors.standIn_of_rigid h hT]

/-- Two unions of the same classes, and so equal types. -/
def urgentFirst : TypeExpr := .union .native [.named "UrgentCancel", .named "CancelReason"]

def urgentLast : TypeExpr := .union .native [.named "CancelReason", .named "UrgentCancel"]

/-- A payload that fits either class. -/
def late : String := "\x7b\"code\":\"late\"\x7d"

theorem decode_after_urgentFirst :
    (decode Samples.Orders.catalog (after Samples.Orders.catalog [.describe (.type urgentFirst)])
      (some late) (.type urgentLast)).1 =
    (decode Samples.Orders.catalog {} (some late) (.type urgentFirst)).1 :=
  (decode_after _ urgentLast).1 [.describe (.type urgentFirst)]

def lateData : Json := .object [("code", .str "late")]

theorem late_eq : late = String.ofList (lateData.chars Json.compact) := by decide

theorem outcome_late {Γ : Catalog} {s : Descriptors} {T : TypeExpr} {d : Descriptor} {v : Value}
    (hd : (s.of? Γ (.type T)).map (·.1) = some d)
    (hΓ : Γ.raised? .data d.type (.ofJson lateData) = none)
    (hv : Validation.Gives (Validation.answer Γ .data (.ofJson lateData) d.type) v) :
    (decode Γ s (some late) (.type T)).1.outcome = .ok v := by
  have hl : Json.Legible lateData := .object (by simpa using Json.Legible.str "late")
  rw [decode_text rfl, hd]
  dsimp only
  rw [decodeText, late_eq, decodeAs_eq hΓ hl hv, if_pos (by decide)]
  rfl

/-- What was named before decides between the two classes. -/
theorem decode_depends_on_history :
    (decode Samples.Orders.catalog (after Samples.Orders.catalog [.describe (.type urgentFirst)])
      (some late) (.type urgentLast)).1.outcome ≠
    (decode Samples.Orders.catalog {} (some late) (.type urgentLast)).1.outcome := by
  have hurgent := outcome_late (Γ := Samples.Orders.catalog)
    (s := after Samples.Orders.catalog [.describe (.type urgentFirst)]) (T := urgentLast)
    (d := ⟨1, urgentFirst⟩)
    (v := .record .model "UrgentCancel"
      [("code", .str "late"), ("detail", .none), ("level", .int 1)]) rfl rfl ⟨_, rfl⟩
  have hplain := outcome_late (Γ := Samples.Orders.catalog) (s := {}) (T := urgentLast)
    (d := ⟨1, urgentLast⟩)
    (v := .record .model "CancelReason" [("code", .str "late"), ("detail", .none)]) rfl rfl ⟨_, rfl⟩
  rw [hurgent, hplain]
  simp

end WorkflowClient.Payload
