import WorkflowClient.Proofs.Json.Floats

/-! Plain data reads back from its compact text, as long as it does not nest too deep. -/
namespace WorkflowClient.Json
open Number

mutual

/-- How deep containers that hold something nest in the data. -/
def nesting : Json → Nat
  | .array items => nestingItems items
  | .object members => nestingMembers members
  | .null | .bool _ | .int _ | .float _ | .str _ => 0

def nestingItems : List Json → Nat
  | [] => 0
  | j :: rest => max (j.nesting + 1) (nestingItems rest)

def nestingMembers : List (String × Json) → Nat
  | [] => 0
  | (_, j) :: rest => max (j.nesting + 1) (nestingMembers rest)

end

theorem nestingItems_le_iff {items : List Json} {n : Nat} :
    nestingItems items ≤ n + 1 ↔ ∀ j ∈ items, j.nesting ≤ n := by
  induction items <;> simp_all [nestingItems]

theorem nestingMembers_le_iff {members : List (String × Json)} {n : Nat} :
    nestingMembers members ≤ n + 1 ↔ ∀ m ∈ members, m.2.nesting ≤ n := by
  induction members <;> simp_all [nestingMembers]

/-- Data whose text can be read: each number in it has one. -/
inductive Legible : Json → Prop
  | null : Legible .null
  | bool (b : Bool) : Legible (.bool b)
  | int {n : Int} (h : writable n = true) : Legible (.int n)
  | float {x : Double} (h : x.isFinite = true) : Legible (.float x)
  | str (s : String) : Legible (.str s)
  | array {items : List Json} (h : ∀ j ∈ items, Legible j) : Legible (.array items)
  | object {members : List (String × Json)} (h : ∀ m ∈ members, Legible m.2) :
      Legible (.object members)

/-- The depth that is left allows for so many levels. -/
def Room (depth : Option Nat) (levels : Nat) : Prop := ∀ d ∈ depth, levels ≤ d

variable {depth : Option Nat} {m n fuel : Nat} {rest : List Char} {j : Json}

theorem Room.mono (h : Room depth n) (hmn : m ≤ n) : Room depth m :=
  fun d hd => Nat.le_trans hmn (h d hd)

theorem Room.deeper (h : Room depth (n + 1)) :
    ∃ depth', deeper depth = .ok depth' ∧ Room depth' n := by
  match depth with
  | none => exact ⟨none, rfl, fun d hd => by cases hd⟩
  | some 0 => exact absurd (h 0 rfl) (by omega)
  | some (d + 1) =>
    refine ⟨some d, rfl, fun e he => ?_⟩
    cases he
    have := h (d + 1) rfl
    omega

theorem skipBlanks_cons {c : Char} (h : isBlank c = false) (cs : List Char) :
    skipBlanks (c :: cs) = c :: cs := by
  simp [skipBlanks, h]

theorem isBlank_of_isDigit {c : Char} (h : c.isDigit = true) : isBlank c = false := by
  unfold isBlank
  have h₁ : ' ' ≠ c := ne_of_isDigit h rfl
  have h₂ : '\t' ≠ c := ne_of_isDigit h rfl
  have h₃ : '\n' ≠ c := ne_of_isDigit h rfl
  have h₄ : '\r' ≠ c := ne_of_isDigit h rfl
  simp [h₁.symm, h₂.symm, h₃.symm, h₄.symm]

/-- A text that stands for a number: nothing in front of it is blank or opens anything. -/
theorem intText_eq_cons (z : Int) :
    ∃ c more, intText z = c :: more ∧ (c = '-' ∨ c.isDigit = true) := by
  obtain ⟨d, more, hd, hdigit⟩ := natText_eq_cons z.natAbs
  unfold intText
  split
  · exact ⟨'-', _, rfl, .inl rfl⟩
  · exact ⟨d, more, hd, .inr hdigit⟩

/-- The first character of a value is no blank and closes nothing. -/
theorem chars_eq_cons (h : Legible j) :
    ∃ c more, j.chars compact = c :: more ∧ isBlank c = false ∧ c ≠ ']' := by
  cases h with
  | null => exact ⟨_, _, rfl, rfl, by decide⟩
  | bool b => cases b <;> exact ⟨_, _, rfl, rfl, by decide⟩
  | @int z h =>
    obtain ⟨c, more, hc, hfirst⟩ := intText_eq_cons z
    refine ⟨c, more, hc, ?_⟩
    rcases hfirst with rfl | hdigit
    · decide
    · exact ⟨isBlank_of_isDigit hdigit, (ne_of_isDigit hdigit rfl).symm⟩
  | @float x h =>
    obtain ⟨c, more, hc, hfirst⟩ := double_eq_cons h
    refine ⟨c, more, hc, ?_⟩
    rcases hfirst with rfl | hdigit
    · decide
    · exact ⟨isBlank_of_isDigit hdigit, (ne_of_isDigit hdigit rfl).symm⟩
  | str s => exact ⟨_, _, rfl, rfl, by decide⟩
  | @array items h => cases items <;> exact ⟨_, _, rfl, rfl, by decide⟩
  | @object members h => cases members <;> exact ⟨_, _, rfl, rfl, by decide⟩

theorem length_chars_pos (h : Legible j) : 1 ≤ (j.chars compact).length := by
  obtain ⟨c, more, hc, -⟩ := chars_eq_cons h
  simp [hc]

theorem length_itemsChars_cons (k : Json) (more : List Json) :
    (itemsChars compact (k :: more)).length =
      1 + (k.chars compact).length + (itemsChars compact more).length := by
  simp [itemsChars, compact]
  omega

theorem length_membersChars_cons (k : String) (i : Json) (more : List (String × Json)) :
    (i.chars compact).length + (membersChars compact more).length + 1 ≤
      (membersChars compact ((k, i) :: more)).length := by
  simp [membersChars, compact]
  omega

/-- What begins like a number is read as one. -/
theorem readValue_number {cs : List Char}
    (h : ∃ c more, cs = c :: more ∧ (c = '-' ∨ c.isDigit = true)) :
    readValue (fuel + 1) depth (cs ++ rest) = readScalar (cs ++ rest) := by
  obtain ⟨c, more, rfl, hfirst⟩ := h
  have hne : c ≠ '"' ∧ c ≠ '[' ∧ c ≠ '{' := by
    rcases hfirst with rfl | hdigit
    · decide
    · exact ⟨(ne_of_isDigit hdigit rfl).symm, (ne_of_isDigit hdigit rfl).symm,
        (ne_of_isDigit hdigit rfl).symm⟩
  rw [List.cons_append]
  unfold readValue
  split <;> simp_all

/-- Reading a value gives it back with what follows. -/
def ReadsBack (j : Json) : Prop :=
  ∀ fuel depth rest, (j.chars compact).length ≤ fuel → Room depth j.nesting → Stops rest →
    readValue fuel depth (j.chars compact ++ rest) = .ok (j, rest)

theorem stops_itemsChars (items : List Json) (rest : List Char) :
    Stops (itemsChars compact items ++ rest) := by
  cases items <;> exact stops_cons (by decide)

theorem stops_membersChars (members : List (String × Json)) (rest : List Char) :
    Stops (membersChars compact members ++ rest) := by
  obtain _ | ⟨⟨k, j⟩, more⟩ := members <;> exact stops_cons (by decide)

/-- The text of legible data begins with no blank. -/
theorem skipBlanks_chars (h : Legible j) (rest : List Char) :
    skipBlanks (j.chars compact ++ rest) = j.chars compact ++ rest := by
  obtain ⟨c, cs, hc, hblank, -⟩ := chars_eq_cons h
  rw [hc, List.cons_append, skipBlanks_cons hblank]

/-- After an item that is read back come those behind the comma. -/
theorem readItems_step {k : Json} {more : List Json} (hk : Legible k)
    (hj : readValue fuel depth (j.chars compact ++ (itemsChars compact (k :: more) ++ rest)) =
      .ok (j, itemsChars compact (k :: more) ++ rest)) :
    readItems (fuel + 1) depth (j.chars compact ++ (itemsChars compact (k :: more) ++ rest)) =
      (readItems fuel depth (k.chars compact ++ (itemsChars compact more ++ rest))).map
        fun r => (j :: r.1, r.2) := by
  have hcomma : itemsChars compact (k :: more) ++ rest =
      ',' :: (k.chars compact ++ (itemsChars compact more ++ rest)) := by
    simp [itemsChars, compact]
  rw [readItems, hj, hcomma]
  simp only [skipBlanks_cons (show isBlank ',' = false by decide), skipBlanks_chars hk]
  cases readItems fuel depth (k.chars compact ++ (itemsChars compact more ++ rest)) <;> rfl

theorem readItems_chars (items : List Json) : ∀ (j : Json) (fuel : Nat),
    (∀ i ∈ j :: items, Legible i ∧ ReadsBack i) →
    (j.chars compact).length + (itemsChars compact items).length ≤ fuel →
    (∀ i ∈ j :: items, Room depth i.nesting) →
    readItems fuel depth (j.chars compact ++ (itemsChars compact items ++ rest)) =
      .ok (j :: items, rest) := by
  induction items with
  | nil =>
    intro j fuel hi hf hd
    obtain ⟨hl, hb⟩ := hi j (by simp)
    obtain ⟨fuel, rfl⟩ : ∃ f, fuel = f + 1 := ⟨fuel - 1, by simp [itemsChars] at hf; omega⟩
    simp only [itemsChars, List.length_singleton] at hf
    rw [readItems, hb fuel depth _ (by omega) (hd j (by simp)) (stops_itemsChars _ _)]
    simp [itemsChars, skipBlanks, isBlank]
  | cons k more ih =>
    intro j fuel hi hf hd
    obtain ⟨hl, hb⟩ := hi j (by simp)
    obtain ⟨hlk, -⟩ := hi k (by simp)
    have hpos := length_chars_pos hl
    have hlen := length_itemsChars_cons k more
    obtain ⟨fuel, rfl⟩ : ∃ f, fuel = f + 1 := ⟨fuel - 1, by omega⟩
    have hnext := ih k fuel (fun i hmem => hi i (List.mem_cons_of_mem _ hmem)) (by omega)
      (fun i hmem => hd i (List.mem_cons_of_mem _ hmem))
    rw [readItems_step hlk (hb fuel depth _ (by omega) (hd j (by simp))
      (stops_itemsChars _ _)), hnext]
    rfl

/-- A member's name and colon, its value, and what follows. -/
def memberText (k : String) (j : Json) (more : List (String × Json)) (rest : List Char) :
    List Char :=
  '"' :: (k.toList.flatMap escape ++
    '"' :: ':' :: (j.chars compact ++ (membersChars compact more ++ rest)))

/-- A member's name is read, and then its value, without which there are no members. -/
theorem readMembers_of_error {k : String} {more : List (String × Json)} {e : ReadError}
    (hj : Legible j)
    (he : readValue fuel depth (j.chars compact ++ (membersChars compact more ++ rest)) =
      .error e) :
    readMembers (fuel + 1) depth (memberText k j more rest) = .error e := by
  simp only [memberText, readMembers, readString_stringChars]
  rw [skipBlanks_cons (by decide)]
  simp only [skipBlanks_chars hj, he]

/-- The brace behind a value ends the members. -/
theorem readMembers_last {k : String} (hj : Legible j)
    (hb : readValue fuel depth (j.chars compact ++ (membersChars compact [] ++ rest)) =
      .ok (j, membersChars compact [] ++ rest)) :
    readMembers (fuel + 1) depth (memberText k j [] rest) = .ok ([(k, j)], rest) := by
  have hbrace : membersChars compact [] ++ rest = '\x7d' :: rest := rfl
  rw [hbrace] at hb
  simp only [memberText, hbrace, readMembers, readString_stringChars]
  rw [skipBlanks_cons (by decide)]
  simp only [skipBlanks_chars hj, hb, skipBlanks_cons (show isBlank '\x7d' = false by decide)]

/-- After a member that is read back come those behind the comma. -/
theorem readMembers_step {k l : String} {i : Json} {more : List (String × Json)} (hj : Legible j)
    (hb : readValue fuel depth
        (j.chars compact ++ (membersChars compact ((l, i) :: more) ++ rest)) =
      .ok (j, membersChars compact ((l, i) :: more) ++ rest)) :
    readMembers (fuel + 1) depth (memberText k j ((l, i) :: more) rest) =
      (readMembers fuel depth (memberText l i more rest)).map fun r => ((k, j) :: r.1, r.2) := by
  have hcomma : membersChars compact ((l, i) :: more) ++ rest =
      ',' :: memberText l i more rest := by
    simp [membersChars, memberText, stringChars, compact]
  have hname : skipBlanks (memberText l i more rest) = memberText l i more rest :=
    skipBlanks_cons (by decide) _
  have hskip := skipBlanks_chars hj (membersChars compact ((l, i) :: more) ++ rest)
  rw [memberText, readMembers, readString_stringChars]
  dsimp only
  rw [skipBlanks_cons (by decide)]
  simp only [hskip, hb]
  rw [hcomma]
  simp only [skipBlanks_cons (show isBlank ',' = false by decide), hname]
  cases readMembers fuel depth (memberText l i more rest) <;> rfl

theorem readMembers_chars (members : List (String × Json)) : ∀ (k : String) (j : Json) (fuel : Nat),
    (∀ m ∈ (k, j) :: members, Legible m.2 ∧ ReadsBack m.2) →
    (j.chars compact).length + (membersChars compact members).length ≤ fuel →
    (∀ m ∈ (k, j) :: members, Room depth m.2.nesting) →
    readMembers fuel depth (memberText k j members rest) = .ok ((k, j) :: members, rest) := by
  induction members with
  | nil =>
    intro k j fuel hi hf hd
    obtain ⟨hl, hb⟩ : Legible j ∧ ReadsBack j := hi (k, j) (by simp)
    obtain ⟨fuel, rfl⟩ : ∃ f, fuel = f + 1 := ⟨fuel - 1, by simp [membersChars] at hf; omega⟩
    simp only [membersChars, List.length_singleton] at hf
    exact readMembers_last hl
      (hb fuel depth _ (by omega) (hd (k, j) (by simp)) (stops_membersChars _ _))
  | cons m more ih =>
    intro k j fuel hi hf hd
    obtain ⟨l, i⟩ := m
    obtain ⟨hl, hb⟩ : Legible j ∧ ReadsBack j := hi (k, j) (by simp)
    have hpos := length_chars_pos hl
    have hlen := length_membersChars_cons l i more
    obtain ⟨fuel, rfl⟩ : ∃ f, fuel = f + 1 := ⟨fuel - 1, by omega⟩
    have hnext := ih l i fuel (fun m hmem => hi m (List.mem_cons_of_mem _ hmem)) (by omega)
      (fun m hmem => hd m (List.mem_cons_of_mem _ hmem))
    rw [readMembers_step hl (hb fuel depth _ (by omega) (hd (k, j) (by simp))
      (stops_membersChars _ _)), hnext]
    rfl

/-- An array is read item by item, one level further down. -/
theorem readValue_array {more : List Json} (hj : Legible j) :
    readValue (fuel + 1) depth ((array (j :: more)).chars compact ++ rest) =
      match deeper depth with
      | .error e => .error e
      | .ok depth =>
        match readItems fuel depth (j.chars compact ++ (itemsChars compact more ++ rest)) with
        | .ok (items, rest) => .ok (.array items, rest)
        | .error e => .error e := by
  obtain ⟨c, cs, hc, -, hclose⟩ := chars_eq_cons hj
  simp only [chars, List.cons_append, List.append_assoc, readValue, skipBlanks_chars hj]
  rw [hc, List.cons_append]
  split
  · simp_all
  · rfl

/-- An object is read member by member, one level further down. -/
theorem readValue_object {k : String} {more : List (String × Json)} :
    readValue (fuel + 1) depth ((object ((k, j) :: more)).chars compact ++ rest) =
      match deeper depth with
      | .error e => .error e
      | .ok depth => match readMembers fuel depth (memberText k j more rest) with
        | .ok (members, rest) => .ok (.object members, rest)
        | .error e => .error e := by
  have htext : (object ((k, j) :: more)).chars compact ++ rest =
      '\x7b' :: memberText k j more rest := by
    simp [chars, memberText, stringChars, compact]
  have hname : skipBlanks (memberText k j more rest) = memberText k j more rest :=
    skipBlanks_cons (by decide) _
  rw [htext]
  simp only [readValue, hname]
  rw [memberText]
  split
  · simp_all
  · rfl

theorem readsBack_array {items : List Json} (h : ∀ j ∈ items, Legible j ∧ ReadsBack j) :
    ReadsBack (.array items) := by
  intro fuel depth rest hf hd hr
  cases items with
  | nil =>
    obtain ⟨fuel, rfl⟩ : ∃ f, fuel = f + 1 := ⟨fuel - 1, by simp [chars] at hf; omega⟩
    simp [chars, readValue, skipBlanks, isBlank]
  | cons j more =>
    simp only [chars, List.length_cons, List.length_append] at hf
    obtain ⟨fuel, rfl⟩ : ∃ f, fuel = f + 1 := ⟨fuel - 1, by omega⟩
    obtain ⟨n, hn⟩ : ∃ n, nestingItems (j :: more) = n + 1 :=
      ⟨_, (Nat.succ_pred (by simp [nestingItems])).symm⟩
    rw [nesting, hn] at hd
    obtain ⟨depth', hdeep, hroom⟩ := hd.deeper
    have hitems : ∀ i ∈ j :: more, Room depth' i.nesting :=
      fun i hi => hroom.mono (nestingItems_le_iff.mp hn.le i hi)
    rw [readValue_array (h j (by simp)).1, hdeep]
    dsimp only
    rw [readItems_chars more j fuel h (by omega) hitems]

theorem readsBack_object {members : List (String × Json)}
    (h : ∀ m ∈ members, Legible m.2 ∧ ReadsBack m.2) : ReadsBack (.object members) := by
  intro fuel depth rest hf hd hr
  obtain _ | ⟨⟨k, j⟩, more⟩ := members
  · obtain ⟨fuel, rfl⟩ : ∃ f, fuel = f + 1 := ⟨fuel - 1, by simp [chars] at hf; omega⟩
    simp [chars, readValue, skipBlanks, isBlank]
  · simp only [chars, List.length_cons, List.length_append] at hf
    obtain ⟨fuel, rfl⟩ : ∃ f, fuel = f + 1 := ⟨fuel - 1, by omega⟩
    obtain ⟨n, hn⟩ : ∃ n, nestingMembers ((k, j) :: more) = n + 1 :=
      ⟨_, (Nat.succ_pred (by simp [nestingMembers])).symm⟩
    rw [nesting, hn] at hd
    obtain ⟨depth', hdeep, hroom⟩ := hd.deeper
    have hmembers : ∀ m ∈ (k, j) :: more, Room depth' m.2.nesting :=
      fun m hm => hroom.mono (nestingMembers_le_iff.mp hn.le m hm)
    rw [readValue_object, hdeep]
    dsimp only
    rw [readMembers_chars more k j fuel h (by omega) hmembers]

theorem Legible.readsBack (h : Legible j) : ReadsBack j := by
  induction h with
  | null =>
    intro fuel depth rest hf hd hr
    obtain ⟨fuel, rfl⟩ : ∃ f, fuel = f + 1 := ⟨fuel - 1, by simp [chars] at hf; omega⟩
    rfl
  | bool b =>
    intro fuel depth rest hf hd hr
    obtain ⟨fuel, rfl⟩ : ∃ f, fuel = f + 1 :=
      ⟨fuel - 1, by cases b <;> simp [chars] at hf <;> omega⟩
    cases b <;> rfl
  | @int z h =>
    intro fuel depth rest hf hd hr
    obtain ⟨c, more, hc, -⟩ := intText_eq_cons z
    obtain ⟨fuel, rfl⟩ : ∃ f, fuel = f + 1 := ⟨fuel - 1, by simp [chars, hc] at hf; omega⟩
    exact (readValue_number (intText_eq_cons z)).trans (readScalar_intText h hr)
  | @float x h =>
    intro fuel depth rest hf hd hr
    obtain ⟨c, more, hc, -⟩ := double_eq_cons h
    obtain ⟨fuel, rfl⟩ : ∃ f, fuel = f + 1 := ⟨fuel - 1, by simp [chars, hc] at hf; omega⟩
    exact (readValue_number (double_eq_cons h)).trans (readScalar_double h hr)
  | str s =>
    intro fuel depth rest hf hd hr
    obtain ⟨fuel, rfl⟩ : ∃ f, fuel = f + 1 :=
      ⟨fuel - 1, by simp [chars, stringChars] at hf; omega⟩
    simp [chars, stringChars, readValue, readString_stringChars]
  | array h ih => exact readsBack_array fun j hj => ⟨h j hj, ih j hj⟩
  | object h ih => exact readsBack_object fun m hm => ⟨h m hm, ih m hm⟩

theorem floatsFiniteItems_iff {items : List Json} :
    floatsFiniteItems items = true ↔ ∀ j ∈ items, j.floatsFinite = true := by
  induction items <;> simp_all [floatsFiniteItems]

theorem floatsFiniteMembers_iff {members : List (String × Json)} :
    floatsFiniteMembers members = true ↔ ∀ m ∈ members, m.2.floatsFinite = true := by
  induction members <;> simp_all [floatsFiniteMembers]

theorem integersWritableItems_iff {items : List Json} :
    integersWritableItems items = true ↔ ∀ j ∈ items, j.integersWritable = true := by
  induction items <;> simp_all [integersWritableItems]

theorem integersWritableMembers_iff {members : List (String × Json)} :
    integersWritableMembers members = true ↔ ∀ m ∈ members, m.2.integersWritable = true := by
  induction members <;> simp_all [integersWritableMembers]

theorem Legible.numbers {j : Json} (h : Legible j) :
    j.floatsFinite = true ∧ j.integersWritable = true := by
  induction h with
  | null => exact ⟨rfl, rfl⟩
  | bool b => exact ⟨rfl, rfl⟩
  | int h => exact ⟨rfl, h⟩
  | float h => exact ⟨h, rfl⟩
  | str s => exact ⟨rfl, rfl⟩
  | array h ih =>
    exact ⟨floatsFiniteItems_iff.mpr fun j hj => (ih j hj).1,
      integersWritableItems_iff.mpr fun j hj => (ih j hj).2⟩
  | object h ih =>
    exact ⟨floatsFiniteMembers_iff.mpr fun m hm => (ih m hm).1,
      integersWritableMembers_iff.mpr fun m hm => (ih m hm).2⟩

/-- Legible data has a text. -/
theorem Legible.print_eq {j : Json} (h : Legible j) :
    j.print? compact = some (String.ofList (j.chars compact)) := by
  simp [print?, h.numbers.1, h.numbers.2]

/-- The compact text of legible data reads back as the data itself. -/
theorem read_chars (h : Legible j) (hd : Room depth j.nesting) :
    read depth (String.ofList (j.chars compact)) = .ok j := by
  obtain ⟨c, cs, hc, hblank, -⟩ := chars_eq_cons h
  have hskip : skipBlanks (j.chars compact) = j.chars compact := by
    rw [hc, skipBlanks_cons hblank]
  have hvalue := h.readsBack (2 * (j.chars compact).length + 1) depth [] (by omega) hd stops_nil
  rw [List.append_nil] at hvalue
  simp only [read, String.toList_ofList, hskip, hvalue]
  rfl

end WorkflowClient.Json
