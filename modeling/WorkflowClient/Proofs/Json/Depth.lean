import WorkflowClient.Proofs.Json.RoundTrip

/-! Data that nests deeper than the limit is not read. -/
namespace WorkflowClient.Json

variable {m n fuel d : Nat} {rest : List Char} {j : Json}

/-- Reading a value stops at the limit if it nests deeper. -/
def TooDeep (j : Json) : Prop :=
  ∀ fuel d rest, (j.chars compact).length ≤ fuel → d < j.nesting → Stops rest →
    readValue fuel (some d) (j.chars compact ++ rest) = .error .tooDeep

theorem room_some_iff : Room (some d) n ↔ n ≤ d :=
  ⟨fun h => h d rfl, fun h e he => by cases he; exact h⟩

/-- The first item that nests too deep stops the reading; those before it are read back. -/
theorem readItems_tooDeep (items : List Json) : ∀ (j : Json) (fuel : Nat),
    (∀ i ∈ j :: items, Legible i ∧ TooDeep i) →
    (j.chars compact).length + (itemsChars compact items).length ≤ fuel →
    (∃ i ∈ j :: items, d < i.nesting) →
    readItems fuel (some d) (j.chars compact ++ (itemsChars compact items ++ rest)) =
      .error .tooDeep := by
  induction items with
  | nil =>
    intro j fuel hi hf hd
    obtain ⟨hl, ht⟩ := hi j (by simp)
    obtain ⟨fuel, rfl⟩ : ∃ f, fuel = f + 1 := ⟨fuel - 1, by simp [itemsChars] at hf; omega⟩
    simp only [itemsChars, List.length_singleton] at hf
    obtain ⟨i, hmem, hdeep⟩ := hd
    rw [List.mem_singleton.mp hmem] at hdeep
    rw [readItems, ht fuel d _ (by omega) hdeep (stops_itemsChars _ _)]
  | cons k more ih =>
    intro j fuel hi hf hd
    obtain ⟨hl, ht⟩ := hi j (by simp)
    obtain ⟨hlk, -⟩ := hi k (by simp)
    have hpos := length_chars_pos hl
    have hlen := length_itemsChars_cons k more
    obtain ⟨fuel, rfl⟩ : ∃ f, fuel = f + 1 := ⟨fuel - 1, by omega⟩
    by_cases hj : d < j.nesting
    · rw [readItems, ht fuel d _ (by omega) hj (stops_itemsChars _ _)]
    · have hmore : ∃ i ∈ k :: more, d < i.nesting := by
        obtain ⟨i, hmem, hdeep⟩ := hd
        rcases List.mem_cons.mp hmem with rfl | hmem
        · exact absurd hdeep hj
        · exact ⟨i, hmem, hdeep⟩
      have hnext := ih k fuel (fun i hmem => hi i (List.mem_cons_of_mem _ hmem)) (by omega) hmore
      have hback := hl.readsBack fuel (some d) (itemsChars compact (k :: more) ++ rest) (by omega)
        (room_some_iff.mpr (by omega)) (stops_itemsChars _ _)
      rw [readItems_step hlk hback, hnext]
      rfl

theorem readMembers_tooDeep (members : List (String × Json)) : ∀ (k : String) (j : Json)
    (fuel : Nat), (∀ m ∈ (k, j) :: members, Legible m.2 ∧ TooDeep m.2) →
    (j.chars compact).length + (membersChars compact members).length ≤ fuel →
    (∃ m ∈ (k, j) :: members, d < m.2.nesting) →
    readMembers fuel (some d) (memberText k j members rest) = .error .tooDeep := by
  induction members with
  | nil =>
    intro k j fuel hi hf hd
    obtain ⟨hl, ht⟩ : Legible j ∧ TooDeep j := hi (k, j) (by simp)
    obtain ⟨fuel, rfl⟩ : ∃ f, fuel = f + 1 := ⟨fuel - 1, by simp [membersChars] at hf; omega⟩
    simp only [membersChars, List.length_singleton] at hf
    obtain ⟨m, hmem, hdeep⟩ := hd
    rw [List.mem_singleton.mp hmem] at hdeep
    exact readMembers_of_error hl (ht fuel d _ (by omega) hdeep (stops_membersChars _ _))
  | cons m more ih =>
    intro k j fuel hi hf hd
    obtain ⟨l, i⟩ := m
    obtain ⟨hl, ht⟩ : Legible j ∧ TooDeep j := hi (k, j) (by simp)
    have hpos := length_chars_pos hl
    have hlen := length_membersChars_cons l i more
    obtain ⟨fuel, rfl⟩ : ∃ f, fuel = f + 1 := ⟨fuel - 1, by omega⟩
    by_cases hj : d < j.nesting
    · exact readMembers_of_error hl (ht fuel d _ (by omega) hj (stops_membersChars _ _))
    · have hmore : ∃ m ∈ (l, i) :: more, d < m.2.nesting := by
        obtain ⟨m, hmem, hdeep⟩ := hd
        rcases List.mem_cons.mp hmem with rfl | hmem
        · exact absurd hdeep hj
        · exact ⟨m, hmem, hdeep⟩
      have hnext := ih l i fuel (fun m hmem => hi m (List.mem_cons_of_mem _ hmem)) (by omega) hmore
      have hback := hl.readsBack fuel (some d) (membersChars compact ((l, i) :: more) ++ rest)
        (by omega) (room_some_iff.mpr (by omega)) (stops_membersChars _ _)
      rw [readMembers_step hl hback, hnext]
      rfl

theorem deeper_some (d : Nat) :
    deeper (some d) = .error .tooDeep ∧ d = 0 ∨
      ∃ e, deeper (some d) = .ok (some e) ∧ d = e + 1 := by
  cases d with
  | zero => exact .inl ⟨rfl, rfl⟩
  | succ e => exact .inr ⟨e, rfl, rfl⟩

theorem tooDeep_array {items : List Json} (h : ∀ j ∈ items, Legible j ∧ TooDeep j) :
    TooDeep (.array items) := by
  intro fuel d rest hf hd hr
  cases items with
  | nil => exact absurd hd (Nat.not_lt_zero d)
  | cons j more =>
    simp only [chars, List.length_cons, List.length_append] at hf
    obtain ⟨fuel, rfl⟩ : ∃ f, fuel = f + 1 := ⟨fuel - 1, by omega⟩
    rw [readValue_array (h j (by simp)).1]
    rcases deeper_some d with ⟨hdeep, rfl⟩ | ⟨e, hdeep, rfl⟩
    · rw [hdeep]
    · have hmore : ∃ i ∈ j :: more, e < i.nesting := by
        by_contra hnone
        push Not at hnone
        exact absurd (nestingItems_le_iff.mpr hnone) (Nat.not_le.mpr hd)
      rw [hdeep]
      dsimp only
      rw [readItems_tooDeep more j fuel h (by omega) hmore]

theorem tooDeep_object {members : List (String × Json)}
    (h : ∀ m ∈ members, Legible m.2 ∧ TooDeep m.2) : TooDeep (.object members) := by
  intro fuel d rest hf hd hr
  obtain _ | ⟨⟨k, j⟩, more⟩ := members
  · exact absurd hd (Nat.not_lt_zero d)
  · simp only [chars, List.length_cons, List.length_append] at hf
    obtain ⟨fuel, rfl⟩ : ∃ f, fuel = f + 1 := ⟨fuel - 1, by omega⟩
    rw [readValue_object]
    rcases deeper_some d with ⟨hdeep, rfl⟩ | ⟨e, hdeep, rfl⟩
    · rw [hdeep]
    · have hmore : ∃ m ∈ (k, j) :: more, e < m.2.nesting := by
        by_contra hnone
        push Not at hnone
        exact absurd (nestingMembers_le_iff.mpr hnone) (Nat.not_le.mpr hd)
      rw [hdeep]
      dsimp only
      rw [readMembers_tooDeep more k j fuel h (by omega) hmore]

theorem Legible.tooDeep (h : Legible j) : TooDeep j := by
  induction h with
  | array h ih => exact tooDeep_array fun j hj => ⟨h j hj, ih j hj⟩
  | object h ih => exact tooDeep_object fun m hm => ⟨h m hm, ih m hm⟩
  | _ => exact fun _ _ _ _ hd => absurd hd (Nat.not_lt_zero _)

/-- The compact text of legible data is read within a limit if it nests no deeper, and only then. -/
theorem read_chars_some (h : Legible j) (d : Nat) :
    read (some d) (String.ofList (j.chars compact)) =
      if j.nesting ≤ d then .ok j else .error .tooDeep := by
  split
  · rename_i hd
    exact read_chars h (room_some_iff.mpr hd)
  · rename_i hd
    have hskip : skipBlanks (j.chars compact) = j.chars compact := by
      simpa using skipBlanks_chars h []
    have hvalue := h.tooDeep (2 * (j.chars compact).length + 1) d [] (by omega) (by omega) stops_nil
    rw [List.append_nil] at hvalue
    simp only [read, String.toList_ofList, hskip, hvalue]

end WorkflowClient.Json
