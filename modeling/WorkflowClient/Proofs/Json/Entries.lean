import Mathlib.Data.List.Nodup
import WorkflowClient.Json.Basic
import WorkflowClient.Proofs.Text.Repeated

/-! Entries under names: what a look-up finds, and what is left of entries whose names come again. -/
namespace WorkflowClient

section
variable {α β κ : Type} [BEq κ] [LawfulBEq κ] {key : α → κ} {l : List α} {a : α} {k : κ}

/-- With distinct keys the first element under a key is the only one. -/
theorem find?_of_nodup (hn : (l.map key).Nodup) (ha : a ∈ l) :
    l.find? (fun x => key x == key a) = some a := by
  induction l with
  | nil => cases ha
  | cons x rest ih =>
    rw [List.map_cons, List.nodup_cons] at hn
    rcases List.mem_cons.mp ha with rfl | hmem
    · simp
    · have hne : key x ≠ key a := fun heq => hn.1 (heq ▸ List.mem_map_of_mem hmem)
      rw [List.find?_cons_of_neg (by simpa using hne), ih hn.2 hmem]

/-- Under distinct names a look-up finds whatever goes by the name, and nothing else. -/
theorem find?_eq_some_iff (hn : (l.map key).Nodup) :
    l.find? (key · == k) = some a ↔ a ∈ l ∧ key a = k := by
  constructor
  · intro h
    exact ⟨List.mem_of_find?_eq_some h, by simpa using List.find?_some h⟩
  · rintro ⟨ha, rfl⟩
    exact find?_of_nodup hn ha

theorem map_find?_eq_some_iff (hn : (l.map key).Nodup) {f : α → β} {b : β} :
    (l.find? (key · == k)).map f = some b ↔ ∃ a ∈ l, key a = k ∧ f a = b := by
  simp only [Option.map_eq_some_iff, find?_eq_some_iff hn, and_assoc]

end

namespace Json

section
variable {α β : Type} [BEq α]

/-- No key equals an earlier one. -/
def Unrepeated (entries : List (α × β)) : Prop :=
  entries.Pairwise fun a b => (a.1 == b.1) = false

theorem put_of_absent {key : α} {value : β} {entries : List (α × β)}
    (h : ∀ e ∈ entries, (e.1 == key) = false) :
    put key value entries = entries ++ [(key, value)] := by
  induction entries with
  | nil => rfl
  | cons e rest ih =>
    have he := h e (by simp)
    have hrest := ih fun x hx => h x (List.mem_cons_of_mem _ hx)
    simp [put, he, hrest]

theorem foldl_put {entries acc : List (α × β)} (h : Unrepeated (acc ++ entries)) :
    entries.foldl (fun acc e => put e.1 e.2 acc) acc = acc ++ entries := by
  induction entries generalizing acc with
  | nil => simp
  | cons e rest ih =>
    have hput : put e.1 e.2 acc = acc ++ [e] :=
      put_of_absent fun x hx => (List.pairwise_append.mp h).2.2 x hx e (by simp)
    rw [List.foldl_cons, hput, ih (by simpa using h)]
    simp

theorem settleEntries_eq_self {entries : List (α × β)} (h : Unrepeated entries) :
    settleEntries entries = entries :=
  foldl_put h

theorem unrepeated_of_nodup {members : List (String × β)} (h : (members.map (·.1)).Nodup) :
    Unrepeated members := by
  unfold Unrepeated
  rw [List.Nodup, List.pairwise_map] at h
  exact h.imp fun hne => by simpa using hne

theorem settleMembers_eq_self {members : List (String × Json)}
    (h : ∀ m ∈ members, m.2.settle = m.2) : settleMembers members = members := by
  induction members with
  | nil => rfl
  | cons m rest ih =>
    obtain ⟨k, j⟩ := m
    rw [settleMembers, h (k, j) (by simp), ih fun m hm => h m (List.mem_cons_of_mem _ hm)]

theorem settle_object {members : List (String × Json)} (hn : (members.map (·.1)).Nodup)
    (h : ∀ m ∈ members, m.2.settle = m.2) : (object members).settle = object members := by
  rw [settle, settleMembers_eq_self h, settleEntries_eq_self (unrepeated_of_nodup hn)]

end

section
variable {β γ : Type} {key : String} {value : β} {entries : List (String × β)}

/-- A new name is put behind the others. -/
theorem names_put (key : String) (value : β) (entries : List (String × β)) :
    (put key value entries).map (·.1) =
      if key ∈ entries.map (·.1) then entries.map (·.1) else entries.map (·.1) ++ [key] := by
  induction entries with
  | nil => rfl
  | cons e rest ih =>
    by_cases he : e.1 = key
    · simp [put, he]
    · have hne : ¬ key = e.1 := fun heq => he heq.symm
      simp only [put, beq_iff_eq, he, if_false, List.map_cons, ih, List.mem_cons, hne, false_or]
      split <;> rfl

theorem nodup_put (h : (entries.map (·.1)).Nodup) : ((put key value entries).map (·.1)).Nodup := by
  rw [names_put]
  split
  · exact h
  · rename_i hk
    refine List.nodup_append.mpr ⟨h, by simp, fun a ha b hb heq => hk ?_⟩
    rw [← List.mem_singleton.mp hb, ← heq]
    exact ha

theorem mem_put {e : String × β} (h : e ∈ put key value entries) :
    e.2 = value ∨ ∃ d ∈ entries, d.2 = e.2 := by
  induction entries with
  | nil =>
    rw [put, List.mem_singleton] at h
    exact .inl (congrArg Prod.snd h)
  | cons d rest ih =>
    unfold put at h
    split at h
    · rcases List.mem_cons.mp h with rfl | hmem
      · exact .inl rfl
      · exact .inr ⟨e, List.mem_cons_of_mem _ hmem, rfl⟩
    · rcases List.mem_cons.mp h with rfl | hmem
      · exact .inr ⟨_, List.mem_cons_self, rfl⟩
      · rcases ih hmem with hvalue | ⟨c, hc, hce⟩
        · exact .inl hvalue
        · exact .inr ⟨c, List.mem_cons_of_mem _ hc, hce⟩

/-- What entries are put under is settled: names once each, and values from the entries. -/
theorem foldl_put_neat (acc : List (String × β)) (ha : (acc.map (·.1)).Nodup) :
    ((entries.foldl (fun acc e => put e.1 e.2 acc) acc).map (·.1)).Nodup ∧
      ∀ e ∈ entries.foldl (fun acc e => put e.1 e.2 acc) acc, ∃ d ∈ acc ++ entries, d.2 = e.2 := by
  induction entries generalizing acc with
  | nil => exact ⟨ha, fun e he => ⟨e, by simpa using he, rfl⟩⟩
  | cons c rest ih =>
    obtain ⟨hn, hv⟩ := ih (put c.1 c.2 acc) (nodup_put ha)
    refine ⟨hn, fun e he => ?_⟩
    obtain ⟨d, hd, hde⟩ := hv e he
    rcases List.mem_append.mp hd with hput | hrest
    · rcases mem_put hput with hvalue | ⟨b, hb, hbd⟩
      · exact ⟨c, by simp, hvalue.symm.trans hde⟩
      · exact ⟨b, List.mem_append_left _ hb, hbd.trans hde⟩
    · exact ⟨d, List.mem_append_right _ (List.mem_cons_of_mem _ hrest), hde⟩

theorem nodup_settleEntries (entries : List (String × β)) :
    ((settleEntries entries).map (·.1)).Nodup :=
  (foldl_put_neat [] List.nodup_nil).1

theorem mem_settleEntries {e : String × β} (h : e ∈ settleEntries entries) :
    ∃ d ∈ entries, d.2 = e.2 := by
  simpa using (foldl_put_neat [] List.nodup_nil).2 e h

/-- A name that is put in comes after those that are there, if it is not one of them. -/
theorem eraseDups_names_put (key : String) (value : β) (entries : List (String × β))
    (more : List String) : ((put key value entries).map (·.1) ++ more).eraseDups =
      (entries.map (·.1) ++ key :: more).eraseDups := by
  rw [names_put]
  split
  · rename_i hmem
    rw [Text.eraseDups_append_of_mem hmem]
  · rw [List.append_assoc, List.singleton_append]

theorem names_foldl_put (entries : List (String × β)) {acc : List (String × β)}
    (ha : (acc.map (·.1)).Nodup) : (entries.foldl (fun acc e => put e.1 e.2 acc) acc).map (·.1) =
      (acc.map (·.1) ++ entries.map (·.1)).eraseDups := by
  induction entries generalizing acc with
  | nil =>
    rw [List.map_nil, List.append_nil, Text.eraseDups_of_nodup ha]
    rfl
  | cons e rest ih =>
    rw [List.foldl_cons, ih (nodup_put ha), eraseDups_names_put, List.map_cons]

/-- The names come in the order in which they are first used. -/
theorem names_settleEntries (entries : List (String × β)) :
    (settleEntries entries).map (·.1) = (entries.map (·.1)).eraseDups :=
  names_foldl_put entries List.nodup_nil

theorem find?_put (key name : String) (value : β) (entries : List (String × β)) :
    (put key value entries).find? (·.1 == name) =
      if key = name then some (key, value) else entries.find? (·.1 == name) := by
  induction entries with
  | nil => by_cases h : key = name <;> simp [put, h]
  | cons e rest ih =>
    obtain ⟨first, _⟩ := e
    by_cases he : first = key
    · subst he
      by_cases h : first = name <;> simp [put, h]
    · by_cases h : first = name
      · subst h
        have hne : key ≠ first := fun heq => he heq.symm
        simp [put, he, hne]
      · simp [put, he, h, ih]

theorem find?_foldl_put (entries acc : List (String × β)) (name : String) :
    (entries.foldl (fun acc e => put e.1 e.2 acc) acc).find? (·.1 == name) =
      (entries.reverse.find? (·.1 == name)).or (acc.find? (·.1 == name)) := by
  induction entries generalizing acc with
  | nil => rfl
  | cons e rest ih =>
    obtain ⟨first, _⟩ := e
    rw [List.foldl_cons, ih, find?_put, List.reverse_cons, List.find?_append, Option.or_assoc]
    by_cases h : first = name <;> simp [h]

/-- Under a name stands the last of its entries. -/
theorem find?_settleEntries (entries : List (String × β)) (name : String) :
    (settleEntries entries).find? (·.1 == name) = entries.reverse.find? (·.1 == name) := by
  rw [settleEntries, find?_foldl_put, List.find?_nil, Option.or_none]

theorem put_map (f : β → γ) (key : String) (value : β) (entries : List (String × β)) :
    put key (f value) (entries.map fun e => (e.1, f e.2)) =
      (put key value entries).map fun e => (e.1, f e.2) := by
  induction entries with
  | nil => rfl
  | cons e rest ih => by_cases h : e.1 = key <;> simp [put, h, ih]

/-- It does not matter whether values are changed before or after. -/
theorem settleEntries_map_values (f : β → γ) (entries : List (String × β)) :
    settleEntries (entries.map fun e => (e.1, f e.2)) =
      (settleEntries entries).map fun e => (e.1, f e.2) := by
  have hfold : ∀ acc : List (String × β),
      (entries.map fun e => (e.1, f e.2)).foldl (fun acc e => put e.1 e.2 acc)
        (acc.map fun e => (e.1, f e.2)) =
      (entries.foldl (fun acc e => put e.1 e.2 acc) acc).map fun e => (e.1, f e.2) := by
    induction entries with
    | nil => exact fun acc => rfl
    | cons e rest ih =>
      intro acc
      rw [List.map_cons, List.foldl_cons, List.foldl_cons, ← ih]
      dsimp only
      rw [put_map]
  exact hfold []

end

end Json
end WorkflowClient
