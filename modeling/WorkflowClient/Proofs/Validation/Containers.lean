import Mathlib.Data.List.Forall2
import WorkflowClient.Proofs.Json.Entries
import WorkflowClient.Proofs.Number.Exact
import WorkflowClient.Validation.Check
import WorkflowClient.Value.Equality

/-! Equality of values, case by case. -/
namespace WorkflowClient.Value

theorem str_beq_iff {s t : String} : ((Value.str s == Value.str t) = true) ↔ s = t := by
  change (s == t) = true ↔ s = t
  exact beq_iff_eq

theorem int_beq_iff {a b : Int} : ((Value.int a == Value.int b) = true) ↔ a = b := by
  change decide (Quantity.exact (Number.Exact.ofInt a) = .exact (Number.Exact.ofInt b)) = true ↔ _
  rw [decide_eq_true_iff, Quantity.exact.injEq]
  exact ⟨Number.Exact.ofInt_inj, congrArg _⟩

/-- Values that differ from each other are all kept behind those that are there. -/
theorem foldl_distinct {vs : List Value} (hd : vs.Pairwise fun v w => (v == w) = false)
    (acc : List Value) (ha : ∀ a ∈ acc, ∀ v ∈ vs, (a == v) = false) :
    vs.foldl (fun acc v => if acc.any (· == v) then acc else v :: acc) acc = vs.reverse ++ acc := by
  induction vs generalizing acc with
  | nil => rfl
  | cons v rest ih =>
    obtain ⟨hv, hrest⟩ := List.pairwise_cons.mp hd
    have hnew : acc.any (· == v) = false := by
      rw [List.any_eq_false]
      intro a hmem
      simpa using ha a hmem v (by simp)
    have hacc : ∀ a ∈ v :: acc, ∀ w ∈ rest, (a == w) = false := by
      intro a hmem w hw
      rcases List.mem_cons.mp hmem with rfl | hmem
      · exact hv w hw
      · exact ha a hmem w (List.mem_cons_of_mem _ hw)
    rw [List.foldl_cons, hnew, if_neg Bool.false_ne_true, ih hrest _ hacc]
    simp

theorem distinct_eq_self {vs : List Value} (hd : vs.Pairwise fun v w => (v == w) = false) :
    distinct vs = vs := by
  rw [distinct, foldl_distinct hd [] (by simp), List.append_nil, List.reverse_reverse]

end WorkflowClient.Value

/-! What containers of plain data are accepted as, given what their parts are accepted as. -/
namespace WorkflowClient

namespace Validation

variable {Γ : Catalog} {m : Mode} {T K : TypeExpr} {v : Value}

/-- The outcome is that the value is accepted. -/
def Gives (r : Outcome) (v : Value) : Prop := ∃ st, r = .ok ⟨v, st⟩

theorem Gives.unique {r : Outcome} {w : Value} (hv : Gives r v) (hw : Gives r w) : v = w := by
  obtain ⟨st, rfl⟩ := hv
  obtain ⟨st', h⟩ := hw
  cases h
  rfl

/-- What a value answers is a check of it with the answers of its parts. -/
theorem exists_subject (Γ : Catalog) (m : Mode) (v : Value) :
    ∃ s : Subject, s.value = v ∧ ∀ T, answer Γ m v T = check Γ m s T := by
  cases v <;> exact ⟨_, rfl, fun _ => rfl⟩

theorem answers_eq_map (items : List Value) : answers Γ m items = items.map (answer Γ m) := by
  induction items with
  | nil => rfl
  | cons v rest ih => rw [answers, ih, List.map_cons]

theorem entryAnswers_eq_map (entries : List (Value × Value)) :
    entryAnswers Γ m entries = entries.map fun e => (e.1, answer Γ m e.1, answer Γ m e.2) := by
  induction entries with
  | nil => rfl
  | cons e rest ih =>
    obtain ⟨k, v⟩ := e
    rw [entryAnswers, ih, List.map_cons]

theorem fieldAnswers_eq_map (fields : List (String × Value)) :
    fieldAnswers Γ m fields = fields.map fun f => answer Γ m f.2 := by
  induction fields with
  | nil => rfl
  | cons f rest ih =>
    obtain ⟨n, v⟩ := f
    rw [fieldAnswers, ih, List.map_cons]

theorem collectIndexed_gives {rs : List Outcome} {vs : List Value} (h : List.Forall₂ Gives rs vs)
    (start : Nat) :
    ∃ parts, collectIndexed start rs = .ok parts ∧ parts.map (·.value) = vs := by
  induction h generalizing start with
  | nil => exact ⟨[], rfl, rfl⟩
  | @cons r v rs vs hr hrest ih =>
    obtain ⟨st, rfl⟩ := hr
    obtain ⟨parts, hparts, hvalues⟩ := ih (start + 1)
    refine ⟨⟨v, st⟩ :: parts, ?_, by rw [List.map_cons, hvalues]⟩
    rw [collectIndexed, hparts]
    rfl

/-- Sequences that are not sets are made of their items as they are accepted. -/
theorem container_gives {kind : SequenceKind} {e : Exactness} {parts : List Accepted}
    (h₁ : kind ≠ .set) (h₂ : kind ≠ .frozenSet) :
    Gives (container Γ kind e parts) (.sequence kind (parts.map (·.value))) := by
  cases kind <;> first | exact ⟨_, rfl⟩ | exact absurd rfl h₁ | exact absurd rfl h₂

theorem unhashable_eq_nil {parts : List Accepted}
    (h : ∀ a ∈ parts, a.value.hashable Γ.isFrozen = true) (start : Nat) :
    unhashable Γ start parts = [] := by
  induction parts generalizing start with
  | nil => rfl
  | cons a rest ih =>
    have hrest := ih (fun b hb => h b (List.mem_cons_of_mem _ hb)) (start + 1)
    simp [unhashable, h a (by simp), hrest]

/-- Sets are made of their items as they are accepted if these can be in a set and differ. -/
theorem container_gives_set {kind : SequenceKind} {e : Exactness} {parts : List Accepted}
    (hh : ∀ a ∈ parts, a.value.hashable Γ.isFrozen = true)
    (hd : (parts.map (·.value)).Pairwise fun v w => (v == w) = false) :
    Gives (container Γ kind e parts) (.sequence kind (parts.map (·.value))) := by
  unfold container
  dsimp only
  rw [unhashable_eq_nil hh, Value.distinct_eq_self hd]
  cases kind <;> exact ⟨_, rfl⟩

theorem checkItems_gives_container {kind : SequenceKind} {s : Subject} {e : Exactness}
    {vs : List Value} (hs : itemsOf m kind s.value = some e)
    (hc : ∀ parts, parts.map (·.value) = vs →
      Gives (container Γ kind e parts) (.sequence kind (parts.map (·.value))))
    (h : List.Forall₂ (fun (a : Answer) v => Gives (a T) v) s.items vs) :
    Gives (checkItems Γ m kind s T) (.sequence kind vs) := by
  have hrs : List.Forall₂ Gives (s.items.map (· T)) vs := List.forall₂_map_left_iff.mpr h
  obtain ⟨parts, hparts, rfl⟩ := collectIndexed_gives hrs 0
  unfold checkItems
  rw [hs]
  dsimp only
  rw [hparts]
  exact hc parts rfl

theorem checkItems_gives {kind : SequenceKind} {s : Subject} {e : Exactness} {vs : List Value}
    (hs : itemsOf m kind s.value = some e) (h₁ : kind ≠ .set) (h₂ : kind ≠ .frozenSet)
    (h : List.Forall₂ (fun (a : Answer) v => Gives (a T) v) s.items vs) :
    Gives (checkItems Γ m kind s T) (.sequence kind vs) :=
  checkItems_gives_container hs (fun _ _ => container_gives h₁ h₂) h

theorem checkItems_gives_set {kind : SequenceKind} {s : Subject} {e : Exactness} {vs : List Value}
    (hs : itemsOf m kind s.value = some e) (hh : ∀ v ∈ vs, v.hashable Γ.isFrozen = true)
    (hd : vs.Pairwise fun v w => (v == w) = false)
    (h : List.Forall₂ (fun (a : Answer) v => Gives (a T) v) s.items vs) :
    Gives (checkItems Γ m kind s T) (.sequence kind vs) := by
  refine checkItems_gives_container hs (fun parts hparts => ?_) h
  subst hparts
  exact container_gives_set (fun a ha => hh _ (List.mem_map_of_mem ha)) hd

/-- Items in a tuple are accepted if each is by its own type. -/
theorem zipItems_gives {items : List Value} {Ts : List TypeExpr} {as : List Answer}
    (hl : items.length = Ts.length)
    (h : List.Forall₂ (fun (p : Value × TypeExpr) (a : Answer) => Gives (a p.2) p.1)
      (items.zip Ts) as) : List.Forall₂ Gives (zipItems as Ts) items := by
  induction items generalizing Ts as with
  | nil =>
    cases h
    cases Ts with
    | nil => exact .nil
    | cons => cases hl
  | cons v rest ih =>
    cases Ts with
    | nil => cases hl
    | cons T Ts =>
      cases h with
      | cons hv hrest => exact .cons hv (ih (by simpa using hl) hrest)

theorem checkTuple_gives {s : Subject} {Ts : List TypeExpr} {e : Exactness} {vs : List Value}
    (hs : itemsOf m .tuple s.value = some e) (hl : s.items.length = Ts.length)
    (h : List.Forall₂ Gives (zipItems s.items Ts) vs) :
    Gives (checkTuple Γ m s Ts) (.sequence .tuple vs) := by
  obtain ⟨parts, hparts, rfl⟩ := collectIndexed_gives h 0
  unfold checkTuple
  rw [hs]
  dsimp only
  rw [if_neg (by omega), hparts]
  have hc : Gives (container Γ .tuple e parts) (.sequence .tuple (parts.map (·.value))) :=
    container_gives (by decide) (by decide)
  exact hc

/-- A named tuple is accepted if each of its items is by the type of its field. -/
theorem checkPositions_gives {cls : String} {defs : List FieldDef} {items : List Answer}
    {values : List (String × Value)} (hl : values.map (·.1) = defs.map (·.name))
    (hi : items.length = defs.length)
    (h : List.Forall₂ Gives (zipItems items (defs.map (·.type))) (values.map (·.2))) :
    Gives (checkPositions cls defs items) (.record .tuple cls values) := by
  obtain ⟨parts, hparts, hvalues⟩ := collectIndexed_gives h 0
  unfold checkPositions
  rw [if_neg (by omega), hparts]
  have hfields : (defs.map (·.name)).zip (parts.map (·.value)) = values := by
    rw [hvalues, ← hl, List.zip_map', List.map_id']
  refine ⟨standingOf .exact parts, ?_⟩
  rw [Except.map, hfields]

theorem checkDict_gives {s : Subject} {pairs given : List (Value × Value)}
    (hs : s.value = .dict given)
    (h : List.Forall₂ (fun (e : Value × Answer × Answer) (p : Value × Value) =>
      Gives (e.2.1 K) p.1 ∧ Gives (e.2.2 T) p.2) s.entries pairs)
    (hp : Json.Unrepeated pairs) : Gives (checkDict s K T) (.dict pairs) := by
  obtain ⟨value, items, entries⟩ := s
  dsimp only at h hs
  have hparts : ∃ parts, collect (entries.map (checkEntry K T)) = .ok parts ∧
      parts.map (fun p => (p.1.value, p.2.value)) = pairs := by
    clear hs hp
    induction h with
    | nil => exact ⟨[], rfl, rfl⟩
    | @cons e p entries pairs he _ ih =>
      obtain ⟨⟨st₁, h₁⟩, ⟨st₂, h₂⟩⟩ := he
      obtain ⟨parts, hparts, hvalues⟩ := ih
      refine ⟨(⟨p.1, st₁⟩, ⟨p.2, st₂⟩) :: parts, ?_, by rw [List.map_cons, hvalues]⟩
      rw [List.map_cons, collect, hparts, checkEntry, h₁, h₂]
      rfl
  obtain ⟨parts, hparts, rfl⟩ := hparts
  subst hs
  unfold checkDict
  dsimp only
  rw [hparts]
  exact ⟨_, by rw [Except.map, Json.settleEntries_eq_self hp]⟩

/-- Fields without another name are accepted if the entries under their names are, and nothing else
is given. -/
theorem checkRecord_gives {kind : RecordKind} {cls : String} {e : Exactness} {extras : Extras}
    {defs : List FieldDef} {entries : List (Value × Answer × Answer)}
    {values : List (String × Value)}
    (h : List.Forall₂ (fun (f : FieldDef) (x : String × Value) => f.name = x.1 ∧
      ∃ a, entry? entries f.given = some a ∧ Gives (a f.type) x.2) defs values)
    (hx : extraFaults defs entries = []) :
    Gives (checkRecord kind cls e extras defs entries) (.record kind cls values) := by
  have hparts : ∃ fs, collect (defs.map (checkField entries)) = .ok fs ∧
      fs.map (fun f => (f.1, f.2.1.value)) = values := by
    clear hx
    induction h with
    | nil => exact ⟨[], rfl, rfl⟩
    | @cons f x defs values hf _ ih =>
      obtain ⟨hname, a, ha, st, hst⟩ := hf
      obtain ⟨fs, hfs, hvalues⟩ := ih
      refine ⟨(f.name, ⟨x.2, st⟩, true) :: fs, ?_, by rw [List.map_cons, hvalues, hname]⟩
      rw [List.map_cons, collect, hfs, checkField, ha]
      dsimp only
      rw [hst]
      rfl
  obtain ⟨fs, hfs, rfl⟩ := hparts
  have hno : noExtras extras defs entries = .ok () := by
    cases extras
    · rfl
    · rw [noExtras, hx]
  unfold checkRecord
  rw [hfs, hno]
  exact ⟨_, rfl⟩

end Validation
end WorkflowClient
