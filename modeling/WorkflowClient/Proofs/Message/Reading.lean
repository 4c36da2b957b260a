import WorkflowClient.Message.Reset
import WorkflowClient.Proofs.Value.Parts
import WorkflowClient.Validation.Fault

/-! When a reading gives a record: every field is given and read. -/
namespace WorkflowClient.Message
open Validation
variable {α β : Type} {ms : Members} {b : β} {v : Value}

theorem run_seq_eq_ok {f : Reading (α → β)} {x : Reading α} :
    (f <*> x).run ms = .ok b ↔ ∃ g a, f.run ms = .ok g ∧ x.run ms = .ok a ∧ g a = b :=
  both_eq_ok

theorem run_map_eq_ok {f : α → β} {x : Reading α} :
    (f <$> x).run ms = .ok b ↔ ∃ a, x.run ms = .ok a ∧ f a = b := by
  change both (fun g a => g a) (.ok f) (x.run ms) = .ok b ↔ _
  simp [both_eq_ok]

theorem field_eq_ok {names : List String} {absent : Checked β} {given : String}
    {decode : Value → Checked β} (h : find? ms names = some (given, v)) :
    (field names absent decode).run ms = .ok b ↔ decode v = .ok b := by
  simp [field, h, below_eq_ok]

theorem mem_of_find? {names : List String} {given : String}
    (h : find? ms names = some (given, v)) : (given, v) ∈ ms := by
  induction names with
  | nil => cases h
  | cons name rest ih =>
    unfold find? at h
    cases hm : ms.find? (·.1 == name) with
    | none => exact ih (by simpa [hm] using h)
    | some m =>
      simp only [hm, Option.orElse_some, Option.some.injEq] at h
      subst h
      exact List.mem_of_find?_eq_some hm

/-- A field's value is that of its absence, or read from one of the members. -/
theorem field_run_cases {names : List String} {absent : Checked β} {decode : Value → Checked β}
    (h : (field names absent decode).run ms = .ok b) :
    absent = .ok b ∨ ∃ m ∈ ms, decode m.2 = .ok b := by
  unfold field at h
  dsimp only at h
  split at h
  · rename_i hm
    exact .inr ⟨_, mem_of_find? hm, below_eq_ok.mp h⟩
  · exact .inl h

theorem nullable_text_ofText? (s : Option String) : nullable text (ofText? s) = .ok s := by
  cases s <;> rfl

/-- The members of an object of data as values. -/
def values (ms : List (String × Json)) : Members := ms.map fun m => (m.1, .ofJson m.2)

theorem membersOf_ofJsonMembers (ms : List (String × Json)) :
    membersOf (Value.ofJsonMembers ms) = values ms := by
  rw [Value.ofJsonMembers_eq_map, membersOf, List.filterMap_map, values, ← List.filterMap_eq_map]
  rfl

end WorkflowClient.Message
