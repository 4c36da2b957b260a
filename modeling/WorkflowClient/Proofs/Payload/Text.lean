import WorkflowClient.Payload.Codec
import WorkflowClient.Proofs.Payload.Data
import WorkflowClient.Proofs.Payload.Neat
import WorkflowClient.Samples.Orders

/-! Texts of plain data, and of values, say what the data does. -/
namespace WorkflowClient.Payload

variable {Γ : Catalog} {v : Value} {j : Json}

theorem loads_chars (hl : Json.Legible j) (hs : j.settle = j) :
    loads (some (String.ofList (j.chars Json.compact))) = .ok j := by
  have hread : Json.read none (String.ofList (j.chars Json.compact)) = .ok j :=
    Json.read_chars hl fun d hd => by cases hd
  have hne : (String.ofList (j.chars Json.compact)).isEmpty = false := by
    obtain ⟨first, more, hc, -⟩ := Json.chars_eq_cons hl
    rw [hc]
    simp
  simp [loads, hne, hread, hs, Except.map]

theorem dumps_eq_ok (hj : jsonable Γ v = .ok (.ofJson j)) {text : String} :
    dumps Γ v = .ok text ↔ Json.Legible j ∧ text = String.ofList (j.chars Json.compact) := by
  rw [dumps, hj, Except.bind]
  cases hd : dataOf (.ofJson j) with
  | error e =>
    refine iff_of_false (by rintro ⟨⟩) fun h => ?_
    rw [dataOf_of_legible h.1] at hd
    cases hd
  | ok i =>
    obtain ⟨rfl, hl⟩ := dataOf_ofJson_eq_ok.mp hd
    rw [and_iff_right hl]
    exact ⟨fun h => (Except.ok.inj h).symm, fun h => h ▸ rfl⟩

/-- A parcel with awkward names and texts in it, the member named True given twice, and a model. -/
def parcel : Value :=
  .dict [(.str "é\"\\\n\u0001",
      .sequence .list [.bool true, .int 1, .str "1", .float Samples.Orders.half]),
    (.bool true, .none),
    (.str "True", .record .data "OrderLine" [("sku", .str ""), ("quantity", .int (-12))]),
    (.none, .sequence .tuple [.dict [],
      .record .model "CancelReason" [("code", .str "late"), ("detail", .none)]])]

def parcelData : Json :=
  .object [("é\"\\\n\u0001", .array [.bool true, .int 1, .str "1", .float Samples.Orders.half]),
    ("True", .object [("sku", .str ""), ("quantity", .int (-12))]),
    ("None", .array [.object [], .object [("code", .str "late"), ("detail", .null)]])]

theorem tidy_parcel : parcel.Tidy Samples.Orders.catalog where
  writable := by decide +kernel
  keys entries hp := by
    have hmem : Value.dict entries ∈ parcel.walk := Value.mem_walk_of_part hp
    simp [parcel, Value.walk, Value.walkEntries, Value.walkItems, Value.walkFields] at hmem
    rcases hmem with rfl | rfl
    · unfold Json.Unrepeated
      decide
    · exact .nil
  models cls fields j hp hj := by
    have hmem : Value.record .model cls fields ∈ parcel.walk := Value.mem_walk_of_part hp
    simp [parcel, Value.walk, Value.walkEntries, Value.walkItems, Value.walkFields] at hmem
    obtain ⟨rfl, rfl⟩ := hmem
    have hreason : Samples.Orders.catalog.serialize "CancelReason"
        [("code", .str "late"), ("detail", .none)] =
          .ok (.object [("code", .str "late"), ("detail", .null)]) := rfl
    cases hreason.symm.trans hj
    exact .object (by decide) (List.forall_mem_cons.mpr
      ⟨.str _, List.forall_mem_singleton.mpr .null⟩)

end WorkflowClient.Payload
