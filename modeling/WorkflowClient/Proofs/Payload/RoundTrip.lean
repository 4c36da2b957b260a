import WorkflowClient.Payload.Codec
import WorkflowClient.Proofs.Descriptor.History
import WorkflowClient.Proofs.Json.Depth
import WorkflowClient.Proofs.Message.Integers
import WorkflowClient.Proofs.Payload.Data
import WorkflowClient.Proofs.Payload.Writes
import WorkflowClient.Samples.Orders

/-! Payloads of values that are exactly of a type are decoded to the values themselves. -/
namespace WorkflowClient
open Payload

variable {Γ : Catalog} {T U : TypeExpr} {v : Value} {s : Descriptors}

theorem Inhabits.carried (hΓ : Γ.Declarative (Inhabits Γ)) (h : Inhabits Γ T v) :
    Carried Γ (Reads Γ) T v := by
  induction h with
  | plain h => exact .plain h
  | member hb hd hm => exact .member hb hd hm
  | list h ih => exact .list (fun _ => .list) ih
  | tupleOf h ih => exact .tupleOf ih
  | tuple hl h ih => exact .tuple hl ih
  | set hs h ih => exact .set hs ih
  | frozenSet hs h ih => exact .frozenSet hs ih
  | dict hu hk h ih => exact .dict hu hk (fun _ => .dict hu hk) ih
  | absent h => exact .absent h
  | present hv hT hne h hs ih ihs =>
    refine .present hv hT (h.isNull_eq_false hv) ih fun U hU hnull hf => ihs U hU (fun heq => ?_) hf
    subst heq
    cases hnull
  | native hn hp hT h => exact .native hn hp hT h
  | record hb hn ha hl h ih =>
    refine .record hn hl hb ?_ (fun js hjs => ?_) (fun p hp => (h p hp).fitting.declared) ih
    · rintro rfl
      exact hΓ.serialize (.record hb hn ha hl h)
    · exact .record hb hn ha hl (hjs.imp fun _ _ hm => ⟨hm.1, hm.2.2⟩)
  | namedTuple hb hl h ih => exact .namedTuple hb hl ih
  | annotated h ih => exact ih.imp fun _ hr => hr.annotated
  | descriptor h ih => exact ih.imp fun _ hr => hr.descriptor

namespace Payload

theorem decodeAs_eq {j : Json} (hΓ : Γ.raised? .data T (.ofJson j) = none) (hl : Json.Legible j)
    (hg : Validation.Gives (Validation.answer Γ .data (.ofJson j) T) v) :
    decodeAs Γ T (String.ofList (j.chars Json.compact)) =
      if j.nesting ≤ depthLimit then .ok v else .error (.faults [⟨.notJson, []⟩]) := by
  obtain ⟨st, hst⟩ := hg
  rw [decodeAs, Json.read_chars_some hl]
  by_cases hn : j.nesting ≤ depthLimit
  · simp [hn, Validation.examine, hΓ, Validation.validate, hst, Except.map, Except.mapError]
  · simp [hn]

theorem encode_eq_dumps (hv : v ≠ .none) : encode Γ v = (dumps Γ v).map some := by
  cases v <;> first | rfl | exact absurd rfl hv

theorem present?_chars {j : Json} (hl : Json.Legible j) :
    present? (some (String.ofList (j.chars Json.compact))) =
      some (String.ofList (j.chars Json.compact)) := by
  obtain ⟨c, more, hc, -⟩ := Json.chars_eq_cons hl
  rw [hc]
  simp [present?]

/-- The text of a value's data is its payload. -/
theorem encode_of_jsonable {j : Json} (hv : v ≠ .none) (hj : jsonable Γ v = .ok (.ofJson j))
    (hl : Json.Legible j) :
    encode Γ v = .ok (some (String.ofList (j.chars Json.compact))) ∧
      present? (some (String.ofList (j.chars Json.compact))) =
        some (String.ofList (j.chars Json.compact)) := by
  refine ⟨?_, present?_chars hl⟩
  rw [encode_eq_dumps hv, dumps, hj, Except.bind, dataOf_of_legible hl]
  rfl

/-- What is encoded reads back by any type that the value is exactly of. -/
theorem exists_text (hΓ : Γ.Declarative (Inhabits Γ)) (h : Inhabits Γ T v) (hv : v ≠ .none) :
    ∃ text, encode Γ v = .ok (some text) ∧ present? (some text) = some text ∧
      ∀ U, Inhabits Γ U v → decodeAs Γ U text =
        if v.nesting ≤ depthLimit then .ok v else .error (.faults [⟨.notJson, []⟩]) := by
  obtain ⟨j, hj, hr⟩ := (h.carried hΓ).alone
  obtain ⟨hraw, hpresent⟩ := encode_of_jsonable hv hj hr.legible
  refine ⟨_, hraw, hpresent, fun U hU => ?_⟩
  obtain ⟨i, hi, hread⟩ := (hU.carried hΓ).alone
  cases ofJson_injective (Except.ok.inj (hj.symm.trans hi))
  rw [decodeAs_eq (hΓ.raised?_eq_none ..) hread.legible hread.gives, hread.nesting]

/-- A payload whose data is read as a value is read as it by the descriptor. -/
theorem exists_raw_of_gives {d : Descriptor} {w : Value} {j : Json} (hv : v ≠ .none)
    (hΓ : Γ.raised? .data d.type (.ofJson j) = none) (hj : jsonable Γ v = .ok (.ofJson j))
    (hl : Json.Legible j)
    (hg : Validation.Gives (Validation.answer Γ .data (.ofJson j) d.type) w) :
    ∃ raw, encode Γ v = .ok raw ∧
      (j.nesting ≤ depthLimit → (decodeWith Γ d raw).result = .ok w) := by
  obtain ⟨hraw, hpresent⟩ := encode_of_jsonable hv hj hl
  refine ⟨_, hraw, fun hn => ?_⟩
  rw [decodeWith, hpresent]
  simp [decodeText, decodeAs_eq hΓ hl hg, hn]

theorem exists_raw {d : Descriptor} (hΓ : Γ.Declarative (Inhabits Γ)) (h : Inhabits Γ d.type v) :
    ∃ raw, encode Γ v = .ok raw ∧
      (v.nesting ≤ depthLimit → (decodeWith Γ d raw).result = .ok v) := by
  by_cases hnone : v = .none
  · subst hnone
    exact ⟨none, rfl, fun _ => rfl⟩
  · obtain ⟨j, hj, hr⟩ := (h.carried hΓ).alone
    rw [← hr.nesting]
    exact exists_raw_of_gives hnone (hΓ.raised?_eq_none ..) hj hr.legible hr.gives

end Payload

namespace Descriptors

/-- The descriptor for a type that can be checked is there or made, and of an equal type. -/
theorem exists_of? (hT : T.checkable Γ = true) (hTany : T ≠ .any) (s : Descriptors) :
    ∃ d s', s.of? Γ (.type T) = some (d, s') ∧ (d.type = T ∨ d.type.equals T = true) := by
  rw [of?_type hTany]
  by_cases hh : T.hashable Γ.isFrozen = true
  · rw [if_pos hh]
    cases hfind : s.kept.find? fun d => d.type == T with
    | some d =>
      have hequal : (d.type == T) = true := by simpa using List.find?_some hfind
      exact ⟨d, s, rfl, .inr hequal⟩
    | none => exact ⟨⟨s.next, T⟩, _, by rw [make?, if_pos hT]; rfl, .inl rfl⟩
  · rw [if_neg hh]
    exact ⟨⟨s.next, T⟩, _, by rw [make?, if_pos hT], .inl rfl⟩

end Descriptors

namespace Payload

/-- What every type equal to the target reads from the data is what the text is decoded to, whatever
descriptors are kept. -/
theorem decode_of_gives {j : Json} {w : Value} (hT : T.checkable Γ = true) (hTany : T ≠ .any)
    (hl : Json.Legible j) (hn : j.nesting ≤ depthLimit)
    (hg : ∀ U, U = T ∨ U.equals T = true → Γ.raised? .data U (.ofJson j) = none ∧
      Validation.Gives (Validation.answer Γ .data (.ofJson j) U) w) (s : Descriptors) :
    (decode Γ s (some (String.ofList (j.chars Json.compact))) (.type T)).1.result = .ok w := by
  obtain ⟨d, s', hd, hequal⟩ := Descriptors.exists_of? hT hTany s
  rw [decode, present?_chars hl, hd]
  obtain ⟨hraised, hgives⟩ := hg d.type hequal
  simp [decodeText, decodeAs_eq hraised hl hgives, hn]

theorem declarative_orders {typed : TypeExpr → Value → Prop} :
    Samples.Orders.catalog.Declarative typed :=
  ⟨fun _ => rfl, fun _ _ _ => rfl⟩

/-- A row of nodes, each the only child of the one before. -/
def row : Nat → Value
  | 0 => .record .model "Node" [("value", .int 0), ("children", .sequence .list [])]
  | n + 1 => .record .model "Node" [("value", .int n), ("children", .sequence .list [row n])]

theorem inhabits_row {n : Nat} (h : n < 10 ^ 20) :
    Inhabits Samples.Orders.catalog (.named "Node") (row n) := by
  have hnode {value : Int} {children : List Value} (hv : Number.writable value = true)
      (hc : ∀ v ∈ children, Inhabits Samples.Orders.catalog (.named "Node") v) :
      Inhabits Samples.Orders.catalog (.named "Node")
        (.record .model "Node"
          [("value", .int value), ("children", .sequence .list children)]) := by
    refine .record rfl (by decide) (by simp) rfl ?_
    simp only [List.zip_cons_cons, List.zip_nil_right, List.forall_mem_cons]
    exact ⟨.plain (.int hv), .list hc, by simp⟩
  induction n with
  | zero => exact hnode (by decide +kernel) (by simp)
  | succ n ih =>
    have hw : Number.writable n = true := Validation.writable_of_lt (by omega)
    exact hnode hw (by simpa using ih (by omega))

theorem row_ne_none (n : Nat) : row n ≠ .none := by
  cases n <;> simp [row]

theorem nesting_row (n : Nat) : (row n).nesting = 2 * n + 1 := by
  induction n with
  | zero => rfl
  | succ n ih =>
    simp only [row, Value.nesting, Value.nestingFields, Value.nestingItems, ih]
    omega

end Payload
end WorkflowClient
