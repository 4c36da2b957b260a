import WorkflowClient.Proofs.Message.Requests
import WorkflowClient.Proofs.Number.Digits
import WorkflowClient.Value.Text

/-! The integers of a request: none is longer than those that the request was made of. -/
namespace WorkflowClient
open Number

namespace Value

mutual

/-- Every integer in the value can be written, and so can every decimal that is an integer. -/
def wholesWritable : Value → Bool
  | .int n => Number.writable n
  | .decimal d => ((Exact.ofDecimal? d).bind Exact.int?).all Number.writable
  | .sequence _ items => wholesWritableItems items
  | .dict entries => wholesWritableEntries entries
  | .record _ _ fields => wholesWritableFields fields
  | .member _ _ _ value => value.wholesWritable
  | _ => true

def wholesWritableItems : List Value → Bool
  | [] => true
  | v :: rest => v.wholesWritable && wholesWritableItems rest

def wholesWritableEntries : List (Value × Value) → Bool
  | [] => true
  | (k, v) :: rest => k.wholesWritable && v.wholesWritable && wholesWritableEntries rest

def wholesWritableFields : List (String × Value) → Bool
  | [] => true
  | (_, v) :: rest => v.wholesWritable && wholesWritableFields rest

end

theorem wholesWritable_of_mem_entries {entries : List (Value × Value)} {e : Value × Value}
    (h : wholesWritableEntries entries = true) (he : e ∈ entries) : e.2.wholesWritable = true := by
  induction entries with
  | nil => cases he
  | cons x rest ih =>
    simp only [wholesWritableEntries, Bool.and_eq_true] at h
    rcases List.mem_cons.mp he with rfl | hmem
    · exact h.1.2
    · exact ih h.2 hmem

theorem wholesWritable_of_mem_fields {fields : List (String × Value)} {f : String × Value}
    (h : wholesWritableFields fields = true) (hf : f ∈ fields) : f.2.wholesWritable = true := by
  induction fields with
  | nil => cases hf
  | cons x rest ih =>
    simp only [wholesWritableFields, Bool.and_eq_true] at h
    rcases List.mem_cons.mp hf with rfl | hmem
    · exact h.1
    · exact ih h.2 hmem

end Value

namespace Validation

theorem writable_of_lt {n : Int} (h : n.natAbs < 10 ^ 20) : writable n = true :=
  writable_iff.mpr (Nat.lt_of_lt_of_le h (Nat.pow_le_pow_right (by decide) (by decide)))

theorem writable_of_intOfDouble {x : Double} {n : Int} (h : intOfDouble x = .ok n) :
    writable n = true := by
  unfold intOfDouble at h
  split at h
  · cases h
  · split at h
    · cases h
    · split at h
      · cases h
        rename_i hn
        unfold wordLimit at hn
        exact writable_of_lt (by omega)
      · cases h

theorem writable_of_intOfDecimal {d : Decimal} {n : Int} (h : intOfDecimal d = .ok n)
    (hd : (Value.decimal d).wholesWritable = true) : writable n = true := by
  unfold intOfDecimal at h
  cases hx : Exact.ofDecimal? d with
  | none => simp [hx] at h
  | some x =>
    cases hn : x.int? with
    | none => simp [hx, hn] at h
    | some m =>
      simp only [hx, hn, Except.ok.injEq] at h
      subst h
      simpa [Value.wholesWritable, hx, hn] using hd

theorem writable_of_integer_chars {cs : List Char} {n : Int} (h : Number.integer cs = .integer n) :
    writable n = true := by
  unfold Number.integer at h
  dsimp only at h
  split at h
  · rename_i ds _
    simp only [ite_eq_iff, reduceCtorEq, and_false, false_or, IntegerReading.integer.injEq] at h
    obtain ⟨hds, hlen, rfl⟩ := h
    simp only [Bool.or_eq_true, not_or, Bool.not_eq_true', Bool.not_eq_false] at hds
    have hdigits : ∀ c ∈ ds, c.isDigit = true := List.all_eq_true.mp hds.2
    have hv := value_lt hdigits
    have hle : 10 ^ ds.length ≤ 10 ^ digitLimit := Nat.pow_le_pow_right (by decide) (by omega)
    rw [writable_iff]
    unfold signed
    split <;> omega
  · cases h

theorem writable_of_intOfChars {cs : List Char} {n : Int} (h : intOfChars cs = .ok n) :
    writable n = true := by
  unfold intOfChars at h
  split at h
  · rename_i hn
    cases h
    exact writable_of_integer_chars hn
  · cases h
  · cases h

/-- An integer that a value is read as is one of the value's own, or within the reach of floats, or
written in no more digits than the limit. -/
theorem writable_of_checkInt {v : Value} {n : Int} {e : Exactness}
    (h : checkInt .lax v = .ok (n, e)) (hv : v.wholesWritable = true) : writable n = true := by
  unfold checkInt at h
  split at h
  · cases h
    exact hv
  · cases h
    exact hv
  · rw [if_neg (by decide)] at h
    split at h
    · cases h
      split <;> decide +kernel
    · obtain ⟨m, hm, hmn⟩ := map_eq_ok h
      cases hmn
      exact writable_of_intOfDouble hm
    · obtain ⟨m, hm, hmn⟩ := map_eq_ok h
      cases hmn
      exact writable_of_intOfDecimal hm hv
    · cases h
      exact hv
    · split at h
      · cases h
      · obtain ⟨m, hm, hmn⟩ := map_eq_ok h
        cases hmn
        exact writable_of_intOfChars hm
      · cases h

end Validation

namespace Message
open Validation

theorem writable_of_integer {v : Value} {n : Int} (h : integer v = .ok n)
    (hv : v.wholesWritable = true) : writable n = true := by
  unfold integer scalar at h
  split at h
  · rename_i hn
    cases h
    exact writable_of_checkInt hn hv
  · cases h

theorem wholesWritable_of_mem_membersOf {entries : List (Value × Value)} {m : String × Value}
    (h : Value.wholesWritableEntries entries = true) (hm : m ∈ membersOf entries) :
    m.2.wholesWritable = true := by
  obtain ⟨e, he, hem⟩ := List.mem_filterMap.mp hm
  obtain ⟨name, -, rfl⟩ := Option.map_eq_some_iff.mp hem
  exact Value.wholesWritable_of_mem_entries h he

namespace ResetPoint

/-- A point's own field is read from one of the members, or has its default. -/
theorem writable_of_ofMembers {t : ResetType} {ms : Members} {p : ResetPoint}
    (h : (shape t).ofMembers ms = .ok p) (hms : ∀ m ∈ ms, m.2.wholesWritable = true) :
    p.ownField.2.wholesWritable = true := by
  simp only [Shape.ofMembers, shape, run_seq_eq_ok, run_map_eq_ok] at h
  obtain ⟨_, q, ⟨_, -, rfl⟩, hown, rfl⟩ := h
  cases t with
  | historyEvent =>
    obtain ⟨n, hn, rfl⟩ := run_map_eq_ok.mp hown
    rcases field_run_cases hn with hdefault | ⟨m, hm, hread⟩
    · cases hdefault
    · exact writable_of_integer hread (hms m hm)
  | badBinary =>
    obtain ⟨_, -, rfl⟩ := run_map_eq_ok.mp hown
    rfl
  | completedTime =>
    obtain ⟨_, -, rfl⟩ := run_map_eq_ok.mp hown
    rfl
  | lastCompleted =>
    obtain ⟨n, hn, rfl⟩ := run_map_eq_ok.mp hown
    rcases field_run_cases hn with hdefault | ⟨m, hm, hread⟩
    · cases hdefault
      exact writable_of_lt (by decide)
    · exact writable_of_integer hread (hms m hm)

theorem writable_of_ofValue {v : Value} {p : ResetPoint} (h : ofValue v = .ok p)
    (hv : v.wholesWritable = true) : p.ownField.2.wholesWritable = true := by
  have htagged : ∃ tag, ofTagged tag v = .ok p := by
    unfold ofValue at h
    split at h
    · exact ⟨_, h⟩
    · exact ⟨_, h⟩
    · cases h
  obtain ⟨tag, htag⟩ := htagged
  unfold ofTagged at htag
  split at htag
  · cases htag
  · split at htag
    · cases htag
    · rename_i t _
      rw [below_eq_ok] at htag
      unfold Shape.ofValue at htag
      split at htag
      · exact writable_of_ofMembers htag fun m hm => wholesWritable_of_mem_membersOf hv hm
      · split at htag
        · exact writable_of_ofMembers htag fun m hm => Value.wholesWritable_of_mem_fields hv hm
        · cases htag
      · cases htag

end ResetPoint
end Message
end WorkflowClient
