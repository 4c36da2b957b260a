import WorkflowClient.Proofs.Diagnostic.Causes
import WorkflowClient.Proofs.Json.Entries
import WorkflowClient.Registry

/-! A registry is an index of the types that it was built from. -/
namespace WorkflowClient

section
variable {α β : Type} {key : α → String} {value : α → β} {l : List α}

/-- A table of entries under distinct keys is just those entries. -/
theorem settleEntries_map (hn : (l.map key).Nodup) :
    Json.settleEntries (l.map fun a => (key a, value a)) = l.map fun a => (key a, value a) := by
  refine Json.settleEntries_eq_self (Json.unrepeated_of_nodup ?_)
  rw [List.map_map]
  exact hn

theorem lookup_map (l : List α) (k : String) :
    (l.map fun a => (key a, value a)).lookup k = (l.find? (key · == k)).map value := by
  induction l with
  | nil => rfl
  | cons a rest ih =>
    rw [List.map_cons, List.lookup_cons, List.find?_cons, ih, BEq.comm]
    cases key a == k <;> rfl

/-- Under distinct keys it does not matter that the last entry counts: the table gives what the
first entry under the key holds. -/
theorem lookup_settleEntries (hn : (l.map key).Nodup) (k : String) :
    (Json.settleEntries (l.map fun a => (key a, value a))).lookup k =
      (l.find? (key · == k)).map value := by
  rw [settleEntries_map hn, lookup_map]

theorem lookup_settleEntries_eq_some_iff (hn : (l.map key).Nodup) {k : String} {b : β} :
    (Json.settleEntries (l.map fun a => (key a, value a))).lookup k = some b ↔
      ∃ a ∈ l, key a = k ∧ value a = b := by
  rw [lookup_settleEntries hn, map_find?_eq_some_iff hn]

end

namespace WorkflowType
variable (t : WorkflowType)

theorem state?_eq_some_iff {id : String} {s : State} :
    t.state? id = some s ↔ s ∈ t.states ∧ s.id = id := by
  rw [Declaration.state?, Declaration.stateTable, lookup_settleEntries_eq_some_iff t.states_nodup]
  constructor
  · rintro ⟨s, hs, rfl, rfl⟩
    exact ⟨hs, rfl⟩
  · rintro ⟨hs, rfl⟩
    exact ⟨s, hs, rfl, rfl⟩

theorem channelType?_eq_some_iff {name : String} {d : Descriptor} :
    t.channelType? name = some d ↔ ⟨name, d⟩ ∈ t.channels := by
  rw [Declaration.channelType?, Declaration.channelTypes,
    lookup_settleEntries_eq_some_iff t.channels_nodup]
  constructor
  · rintro ⟨c, hc, rfl, rfl⟩
    exact hc
  · intro hc
    exact ⟨_, hc, rfl, rfl⟩

theorem channelType?_eq_none_iff {name : String} :
    t.channelType? name = none ↔ ∀ d, ⟨name, d⟩ ∉ t.channels := by
  simp only [Option.eq_none_iff_forall_ne_some, ne_eq, t.channelType?_eq_some_iff]

theorem attributeType?_eq_some_iff {key : String} {d : Descriptor} :
    t.attributeType? key = some d ↔ ⟨key, d⟩ ∈ t.attributes := by
  rw [Declaration.attributeType?, Declaration.attributeTypes,
    lookup_settleEntries_eq_some_iff t.attributes_nodup]
  constructor
  · rintro ⟨a, ha, rfl, rfl⟩
    exact ha
  · intro ha
    exact ⟨_, ha, rfl, rfl⟩

theorem attributeType?_eq_none_iff {key : String} :
    t.attributeType? key = none ↔ key ∉ t.attributeKeys := by
  rw [Declaration.attributeType?, Declaration.attributeTypes,
    lookup_settleEntries t.attributes_nodup]
  simp [Declaration.attributeKeys]

theorem channelTypes_eq : t.channelTypes = t.channels.map fun c => (c.name, c.type) :=
  settleEntries_map t.channels_nodup

theorem attributeTypes_eq : t.attributeTypes = t.attributes.map fun a => (a.key, a.type) :=
  settleEntries_map t.attributes_nodup

end WorkflowType

namespace Registry
variable {r : Registry} {ts : List WorkflowType} {type : String}

/-- What a registry answers is what was declared: nothing is lost or shadowed, and nothing comes
from another type. -/
structure Indexes (r : Registry) (ts : List WorkflowType) : Prop where
  names : r.names = ts.map (·.name)
  size : r.size = ts.length
  contains (type : String) : r.contains type = true ↔ type ∈ ts.map (·.name)
  get? (type : String) (t : WorkflowType) : r.get? type = some t ↔ t ∈ ts ∧ t.name = type
  state? (type id : String) (s : State) : r.state? type id = some s ↔
    ∃ t ∈ ts, t.name = type ∧ s ∈ t.states ∧ s.id = id
  channelType? (type name : String) (d : Descriptor) : r.channelType? type name = some d ↔
    ∃ t ∈ ts, t.name = type ∧ ⟨name, d⟩ ∈ t.channels
  attributeType? (type key : String) (d : Descriptor) : r.attributeType? type key = some d ↔
    ∃ t ∈ ts, t.name = type ∧ ⟨key, d⟩ ∈ t.attributes
  channelTypes? (type : String) (table : List (String × Descriptor)) :
    r.channelTypes? type = some table ↔
      ∃ t ∈ ts, t.name = type ∧ t.channels.map (fun c => (c.name, c.type)) = table
  attributeTypes? (type : String) (table : List (String × Descriptor)) :
    r.attributeTypes? type = some table ↔
      ∃ t ∈ ts, t.name = type ∧ t.attributes.map (fun a => (a.key, a.type)) = table

theorem entries_eq (r : Registry) : r.entries = r.types.map fun t => (t.name, t) :=
  settleEntries_map r.names_nodup

theorem names_eq (r : Registry) : r.names = r.types.map (·.name) := by
  rw [names, entries_eq, List.map_map]
  rfl

theorem get?_eq_some_iff {t : WorkflowType} :
    r.get? type = some t ↔ t ∈ r.types ∧ t.name = type := by
  rw [get?, entries, lookup_settleEntries_eq_some_iff r.names_nodup]
  constructor
  · rintro ⟨t, ht, rfl, rfl⟩
    exact ⟨ht, rfl⟩
  · rintro ⟨ht, rfl⟩
    exact ⟨t, ht, rfl, rfl⟩

theorem get?_eq_none_iff : r.get? type = none ↔ ∀ t ∈ r.types, t.name ≠ type := by
  rw [get?, entries, lookup_settleEntries r.names_nodup]
  simp

theorem contains_iff : r.contains type = true ↔ type ∈ r.types.map (·.name) := by
  rw [contains, names_eq, List.contains_iff_mem]

/-- What is looked up in a type that is looked up itself. -/
theorem bind_get?_eq_some_iff {β : Type} {f : WorkflowType → Option β} {b : β} :
    (r.get? type).bind f = some b ↔ ∃ t ∈ r.types, t.name = type ∧ f t = some b := by
  simp only [Option.bind_eq_some_iff, get?_eq_some_iff, and_assoc]

theorem map_get?_eq_some_iff {β : Type} {f : WorkflowType → β} {b : β} :
    (r.get? type).map f = some b ↔ ∃ t ∈ r.types, t.name = type ∧ f t = b := by
  simp only [Option.map_eq_some_iff, get?_eq_some_iff, and_assoc]

theorem indexes_types (r : Registry) : r.Indexes r.types where
  names := r.names_eq
  size := by rw [Registry.size, entries_eq, List.length_map]
  contains type := contains_iff
  get? type t := get?_eq_some_iff
  state? type id s := by
    simp only [Registry.state?, bind_get?_eq_some_iff, WorkflowType.state?_eq_some_iff]
  channelType? type name d := by
    simp only [Registry.channelType?, bind_get?_eq_some_iff,
      WorkflowType.channelType?_eq_some_iff]
  attributeType? type key d := by
    simp only [Registry.attributeType?, bind_get?_eq_some_iff,
      WorkflowType.attributeType?_eq_some_iff]
  channelTypes? type table := by
    simp only [Registry.channelTypes?, map_get?_eq_some_iff, WorkflowType.channelTypes_eq]
  attributeTypes? type table := by
    simp only [Registry.attributeTypes?, map_get?_eq_some_iff, WorkflowType.attributeTypes_eq]

theorem build_of_nodup (h : (ts.map (·.name)).Nodup) : build ts = .ok ⟨ts, h⟩ :=
  dif_pos (Text.repeated_eq_nil_iff.mpr h)

theorem build_of_not_nodup (h : ¬ (ts.map (·.name)).Nodup) :
    build ts = .error (.duplicateTypes (Text.repeated (ts.map (·.name)))) :=
  dif_neg fun heq => h (Text.repeated_eq_nil_iff.mp heq)

/-- Types are refused exactly when a name occurs twice; the error carries and names those that do,
each once, in the order of their first occurrence. Of any other types the registry is an index. -/
theorem build_indexes (ts : List WorkflowType) :
    let names := ts.map (·.name)
    ((∃ n, 1 < names.count n) ∧ ∃ e twice, build ts = .error e ∧
        e.Shows (.duplicateTypes twice) ∧ (∀ n, n ∈ twice ↔ 1 < names.count n) ∧
        twice.Pairwise fun a b => names.idxOf a < names.idxOf b) ∨
      (∀ n, names.count n ≤ 1) ∧ ∃ r, build ts = .ok r ∧ r.Indexes ts := by
  intro names
  by_cases h : names.Nodup
  · exact .inr ⟨List.nodup_iff_count.mp h, _, build_of_nodup h, indexes_types _⟩
  · refine .inl ⟨?_, _, _, build_of_not_nodup h, Diagnostic.shows_duplicateTypes _,
      fun n => Text.mem_repeated, Text.pairwise_idxOf_repeated names⟩
    simpa [List.nodup_iff_count] using h

end Registry
end WorkflowClient
