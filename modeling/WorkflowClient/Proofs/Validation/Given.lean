import WorkflowClient.Proofs.Validation.Containers
import WorkflowClient.Validation.Fault

/-! Containers of plain data are accepted as what their parts are accepted as, and as nothing
else. -/
namespace WorkflowClient.Validation

variable {Γ : Catalog} {m : Mode} {T K : TypeExpr} {w : Value}

theorem collect_eq_ok {α : Type} {rs : List (Checked α)} {as : List α} :
    collect rs = .ok as ↔ List.Forall₂ (fun r a => r = .ok a) rs as := by
  induction rs generalizing as with
  | nil =>
    rw [collect, List.forall₂_nil_left_iff, Except.ok.injEq]
    exact eq_comm
  | cons r rest ih =>
    rw [collect, both_eq_ok]
    constructor
    · rintro ⟨a, more, hr, hrest, rfl⟩
      exact .cons hr (ih.mp hrest)
    · rintro (_ | ⟨hr, hrest⟩)
      exact ⟨_, _, hr, ih.mpr hrest, rfl⟩

theorem collectIndexed_eq_ok {α : Type} {rs : List (Checked α)} {as : List α} {start : Nat} :
    collectIndexed start rs = .ok as ↔ List.Forall₂ (fun r a => r = .ok a) rs as := by
  induction rs generalizing as start with
  | nil =>
    rw [collectIndexed, List.forall₂_nil_left_iff, Except.ok.injEq]
    exact eq_comm
  | cons r rest ih =>
    rw [collectIndexed, both_eq_ok]
    constructor
    · rintro ⟨a, more, hr, hrest, rfl⟩
      exact .cons (below_eq_ok.mp hr) (ih.mp hrest)
    · rintro (_ | ⟨hr, hrest⟩)
      exact ⟨_, _, below_eq_ok.mpr hr, ih.mpr hrest, rfl⟩

theorem exists_map_iff {α β γ : Type} {R : α → β → Prop} {g : β → γ} {as : List α} {cs : List γ} :
    (∃ bs, List.Forall₂ R as bs ∧ bs.map g = cs) ↔
      List.Forall₂ (fun a c => ∃ b, R a b ∧ g b = c) as cs := by
  constructor
  · rintro ⟨bs, h, rfl⟩
    rw [List.forall₂_map_right_iff]
    exact h.imp fun _ b hr => ⟨b, hr, rfl⟩
  · intro h
    induction h with
    | nil => exact ⟨[], .nil, rfl⟩
    | cons hac _ ih =>
      obtain ⟨b, hr, rfl⟩ := hac
      obtain ⟨bs, hrest, rfl⟩ := ih
      exact ⟨b :: bs, .cons hr hrest, rfl⟩

theorem checkItems_gives_iff {s : Subject} {e : Exactness}
    (hs : itemsOf m .list s.value = some e) :
    Gives (checkItems Γ m .list s T) w ↔ ∃ ws, w = .sequence .list ws ∧
      List.Forall₂ (fun (a : Answer) v => Gives (a T) v) s.items ws := by
  constructor
  · rintro ⟨st, h⟩
    unfold checkItems at h
    rw [hs] at h
    dsimp only at h
    cases hparts : collectIndexed 0 (s.items.map (· T)) with
    | error fs =>
      rw [hparts] at h
      cases h
    | ok parts =>
      rw [hparts] at h
      cases h
      refine ⟨parts.map (·.value), rfl, ?_⟩
      rw [List.forall₂_map_right_iff]
      have hall := collectIndexed_eq_ok.mp hparts
      rw [List.forall₂_map_left_iff] at hall
      exact hall.imp fun _ part hr => ⟨part.standing, hr⟩
  · rintro ⟨ws, rfl, h⟩
    exact checkItems_gives hs (by decide) (by decide) h

theorem gives_of_checkEntry {e : Value × Answer × Answer} {p : Accepted × Accepted}
    (h : checkEntry K T e = .ok p) : Gives (e.2.1 K) p.1.value ∧ Gives (e.2.2 T) p.2.value := by
  obtain ⟨a, b, hkey, hvalue, rfl⟩ := both_eq_ok.mp h
  have hk := below_eq_ok.mp (below_eq_ok.mp hkey)
  exact ⟨⟨a.standing, hk⟩, ⟨b.standing, below_eq_ok.mp hvalue⟩⟩

theorem of_checkDict_gives {s : Subject} (h : Gives (checkDict s K T) w) :
    ∃ pairs, w = .dict (Json.settleEntries pairs) ∧
      List.Forall₂ (fun (e : Value × Answer × Answer) (p : Value × Value) =>
        Gives (e.2.1 K) p.1 ∧ Gives (e.2.2 T) p.2) s.entries pairs := by
  obtain ⟨st, h⟩ := h
  unfold checkDict at h
  split at h
  · obtain ⟨parts, hparts, hw⟩ := map_eq_ok h
    cases hw
    refine ⟨_, rfl, ?_⟩
    rw [List.forall₂_map_right_iff]
    have hall := collect_eq_ok.mp hparts
    rw [List.forall₂_map_left_iff] at hall
    exact hall.imp fun _ _ => gives_of_checkEntry
  · cases h

/-- The field takes the value: from what is given under its name, or as its default. -/
def Fills (entries : List (Value × Answer × Answer)) (f : FieldDef) (x : Value) : Prop :=
  match entry? entries f.given with
  | some a => Gives (a f.type) x
  | none => f.default = some x

theorem checkField_fills {entries : List (Value × Answer × Answer)} {f : FieldDef}
    {x : String × Value} : (∃ c, checkField entries f = .ok c ∧ (c.1, c.2.1.value) = x) ↔
      f.name = x.1 ∧ Fills entries f x.2 := by
  unfold checkField Fills
  cases entry? entries f.given with
  | some a =>
    constructor
    · rintro ⟨c, hc, rfl⟩
      obtain ⟨b, hb, rfl⟩ := map_eq_ok (below_eq_ok.mp hc)
      exact ⟨rfl, b.standing, hb⟩
    · rintro ⟨hname, st, hst⟩
      refine ⟨(f.name, ⟨x.2, st⟩, true), ?_, Prod.ext hname rfl⟩
      dsimp only
      rw [hst]
      rfl
  | none =>
    cases f.default with
    | none => exact iff_of_false (by rintro ⟨c, ⟨⟩, -⟩) (by rintro ⟨-, ⟨⟩⟩)
    | some d =>
      constructor
      · rintro ⟨c, ⟨⟩, rfl⟩
        exact ⟨rfl, rfl⟩
      · rintro ⟨hname, ⟨⟩⟩
        exact ⟨_, rfl, Prod.ext hname rfl⟩

theorem checkRecord_gives_iff {kind : RecordKind} {cls : String} {e : Exactness} {extras : Extras}
    {defs : List FieldDef} {entries : List (Value × Answer × Answer)} :
    Gives (checkRecord kind cls e extras defs entries) w ↔
      noExtras extras defs entries = .ok () ∧ ∃ values, w = .record kind cls values ∧
        List.Forall₂ (fun (f : FieldDef) (x : String × Value) =>
          f.name = x.1 ∧ Fills entries f x.2) defs values := by
  simp only [← checkField_fills, ← exists_map_iff]
  constructor
  · rintro ⟨st, h⟩
    obtain ⟨cs, u, hcs, hno, hw⟩ := both_eq_ok.mp h
    have hall := collect_eq_ok.mp hcs
    rw [List.forall₂_map_left_iff] at hall
    exact ⟨hno, _, (congrArg Accepted.value hw).symm, cs, hall, rfl⟩
  · rintro ⟨hno, _, rfl, cs, hcs, rfl⟩
    have hall : collect (defs.map (checkField entries)) = .ok cs := by
      rw [collect_eq_ok, List.forall₂_map_left_iff]
      exact hcs
    exact ⟨_, both_eq_ok.mpr ⟨cs, (), hall, hno, rfl⟩⟩

end WorkflowClient.Validation
