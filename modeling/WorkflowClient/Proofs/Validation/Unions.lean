import WorkflowClient.Proofs.Payload.Members
import WorkflowClient.Proofs.Validation.Containers

/-! The choice among the members of a union when at most one value comes into question. -/
namespace WorkflowClient.Validation

variable {Γ : Catalog} {m : Mode} {T : TypeExpr} {Ts : List TypeExpr} {v : Value} {s : Subject}

def Refused {α : Type} (r : Checked α) : Prop := ∃ fs, r = .error fs

/-- The outcome is that the value is accepted, or that nothing is. -/
def Offers (r : Outcome) (v : Value) : Prop := Gives r v ∨ Refused r

/-- The best of outcomes that accept the value or nothing accepts it if any of them does. -/
theorem pickBest_gives {rs : List Outcome} (h : ∀ r ∈ rs, Offers r v) (best : Option Accepted)
    (hb : ∀ a ∈ best, a.value = v) (hg : best.isSome = true ∨ ∃ r ∈ rs, Gives r v) :
    ∃ st, pickBest best rs = some ⟨v, st⟩ := by
  induction rs generalizing best with
  | nil =>
    cases best with
    | none => simp at hg
    | some a =>
      obtain ⟨w, st⟩ := a
      cases hb _ rfl
      exact ⟨st, rfl⟩
  | cons r rest ih =>
    have hrest : ∀ r ∈ rest, Offers r v := fun r hr => h r (List.mem_cons_of_mem _ hr)
    rcases h r (by simp) with ⟨st, rfl⟩ | ⟨fs, rfl⟩
    · unfold pickBest
      split
      · exact ⟨_, rfl⟩
      · cases best with
        | none => exact ih hrest _ (by simp) (.inl rfl)
        | some b =>
          refine ih hrest _ ?_ (.inl rfl)
          intro a ha
          have hbv := hb b rfl
          simp only [Option.mem_def, Option.some.injEq] at ha
          subst ha
          split
          · rfl
          · exact hbv
    · refine ih hrest best hb ?_
      rcases hg with hsome | ⟨r, hr, hv⟩
      · exact .inl hsome
      · rcases List.mem_cons.mp hr with rfl | hmem
        · obtain ⟨st, hst⟩ := hv
          cases hst
        · exact .inr ⟨r, hmem, hv⟩

/-- An exact match is the best if no other value is one. -/
theorem pickBest_exact {rs : List Outcome}
    (h : ∀ a, .ok a ∈ rs → a.standing = .exact → a.value = v) (hr : .ok ⟨v, .exact⟩ ∈ rs)
    (best : Option Accepted) : pickBest best rs = some ⟨v, .exact⟩ := by
  induction rs generalizing best with
  | nil => cases hr
  | cons r rest ih =>
    have hrest := ih fun a ha => h a (List.mem_cons_of_mem _ ha)
    cases r with
    | error fs =>
      rcases List.mem_cons.mp hr with heq | hmem
      · cases heq
      · exact hrest hmem best
    | ok a =>
      unfold pickBest
      by_cases ha : a.standing = .exact
      · have hv := h a (by simp) ha
        obtain ⟨w, st⟩ := a
        subst ha hv
        rw [if_pos rfl]
      · have hmem : .ok ⟨v, .exact⟩ ∈ rest := by
          rcases List.mem_cons.mp hr with heq | hmem
          · cases heq
            exact absurd rfl ha
          · exact hmem
        rw [if_neg ha]
        cases best <;> exact hrest hmem _

theorem mem_checkMembers {o : String × Outcome} :
    o ∈ checkMembers Γ m s Ts ↔
      ∃ T ∈ Ts, T.isNull = false ∧ o = (label Γ T, check Γ m s T) := by
  induction Ts with
  | nil => simp [checkMembers]
  | cons T rest ih =>
    unfold checkMembers
    cases hT : T.isNull with
    | true => simp [ih, hT]
    | false => simp [ih, hT]

theorem eq_of_pickBest {r : Outcome} {a : Accepted} (h : pickBest none [r] = some a) :
    r = .ok a := by
  cases r with
  | error fs => cases h
  | ok b =>
    unfold pickBest at h
    split at h <;> cases h <;> rfl

/-- A union of a value other than null chooses among the outcomes of its members. -/
theorem check_union {spelling : Spelling} (hs : s.value ≠ .none)
    (hc : ∃ st, pickBest none ((checkMembers Γ m s Ts).map (·.2)) = some ⟨v, st⟩) :
    Gives (check Γ m s (.union spelling Ts)) v := by
  obtain ⟨st, hst⟩ := hc
  unfold check
  split
  · rename_i hnull
    cases hv : s.value <;> simp_all
  · split
    · rename_i l r hone
      rw [hone] at hst
      exact ⟨st, eq_of_pickBest hst⟩
    · unfold chooseMember
      rw [hst]
      exact ⟨st, rfl⟩

/-- A union accepts a value other than null if a member does, and the others accept it as well or
nothing. -/
theorem checkUnion_gives {spelling : Spelling} (hs : s.value ≠ .none)
    (hT : ∃ T ∈ Ts, T.isNull = false ∧ Gives (check Γ m s T) v)
    (h : ∀ T ∈ Ts, T.isNull = false → Offers (check Γ m s T) v) :
    Gives (check Γ m s (.union spelling Ts)) v := by
  obtain ⟨T, hmem, hnull, hgives⟩ := hT
  have hall : ∀ r ∈ (checkMembers Γ m s Ts).map (·.2), Offers r v := by
    intro r hr
    obtain ⟨o, ho, rfl⟩ := List.mem_map.mp hr
    obtain ⟨U, hU, hUnull, rfl⟩ := mem_checkMembers.mp ho
    exact h U hU hUnull
  have hone : ∃ r ∈ (checkMembers Γ m s Ts).map (·.2), Gives r v :=
    ⟨_, List.mem_map_of_mem (mem_checkMembers.mpr ⟨T, hmem, hnull, rfl⟩), hgives⟩
  exact check_union hs (pickBest_gives hall none (by simp) (.inr hone))

/-- A union accepts a value that fits one of its members exactly if no other value fits any. -/
theorem checkUnion_gives_exact {spelling : Spelling} (hs : s.value ≠ .none)
    (hT : ∃ T ∈ Ts, T.isNull = false ∧ check Γ m s T = .ok ⟨v, .exact⟩)
    (h : ∀ T ∈ Ts, ∀ a, check Γ m s T = .ok a → a.standing = .exact → a.value = v) :
    Gives (check Γ m s (.union spelling Ts)) v := by
  obtain ⟨T, hmem, hnull, hexact⟩ := hT
  have hall : ∀ a, .ok a ∈ (checkMembers Γ m s Ts).map (·.2) → a.standing = .exact →
      a.value = v := by
    intro a ha hst
    obtain ⟨o, ho, hoa⟩ := List.mem_map.mp ha
    obtain ⟨U, hU, -, rfl⟩ := mem_checkMembers.mp ho
    exact h U hU a hoa hst
  have hone : .ok ⟨v, .exact⟩ ∈ (checkMembers Γ m s Ts).map (·.2) := by
    rw [← hexact]
    exact List.mem_map_of_mem (mem_checkMembers.mpr ⟨T, hmem, hnull, rfl⟩)
  exact check_union hs ⟨_, pickBest_exact hall hone none⟩

theorem check_bare : ∀ T : TypeExpr, check Γ m s T = check Γ m s T.bare
  | .annotated T _ => check_bare T
  | .descriptor T => check_bare T
  | .any | .none | .primitive _ | .named _ | .list .. | .set _ | .frozenSet _ | .dict .. | .tuple _
  | .tupleOf _ | .union .. | .literal _ => rfl

/-- Arrays and objects are nothing that a type of scalars could be read from. -/
theorem checkPrimitive_refused {w : Value} (hw : w.outline? ≠ some .scalar) (hn : w ≠ .none)
    (p : Primitive) : Refused (checkPrimitive m w p) := by
  cases w <;> first | exact absurd rfl hw | exact absurd rfl hn | skip
  all_goals cases p <;> cases m <;> exact ⟨_, rfl⟩

theorem itemsOf_eq_none {kind : SequenceKind} {w : Value} (hm : m ≠ .lax)
    (hw : w.outline? ≠ some .array) : itemsOf m kind w = none := by
  unfold itemsOf
  split
  · exact absurd rfl hw
  · exact absurd rfl hw
  · rw [if_neg hm]
  · rw [if_neg hm]
  · rfl

theorem checkItems_refused (hm : m ≠ .lax) (hs : s.value.outline? ≠ some .array)
    (kind : SequenceKind) (T : TypeExpr) : Refused (checkItems Γ m kind s T) := by
  unfold checkItems
  rw [itemsOf_eq_none hm hs]
  exact ⟨_, rfl⟩

theorem checkTuple_refused (hm : m ≠ .lax) (hs : s.value.outline? ≠ some .array)
    (Ts : List TypeExpr) : Refused (checkTuple Γ m s Ts) := by
  unfold checkTuple
  rw [itemsOf_eq_none hm hs]
  exact ⟨_, rfl⟩

theorem checkDict_refused (hs : s.value.outline? ≠ some .object) (K T : TypeExpr) :
    Refused (checkDict s K T) := by
  unfold checkDict
  split
  · simp_all [Value.outline?]
  · exact ⟨_, rfl⟩

theorem isInstance_eq_false {kind : RecordKind} {cls : String} {w : Value} (hk : kind ≠ .tuple)
    (hw : w.outline? ≠ some .object) : isInstance Γ kind cls w = false := by
  cases w with
  | record k c fields =>
    cases k with
    | model => exact absurd rfl hw
    | data => exact absurd rfl hw
    | tuple => simp [isInstance, hk.symm]
  | _ => rfl

/-- Records are read from objects only. -/
theorem checkNamed_refused_record {cls : String} {kind : RecordKind} {defs : List FieldDef}
    (hb : (Γ.body? cls).bind ClassBody.record? = some (kind, defs))
    (hs : s.value.outline? ≠ some .object) : Refused (checkNamed Γ m s cls) := by
  obtain ⟨body, hbody, hrec⟩ := Option.bind_eq_some_iff.mp hb
  unfold checkNamed
  rw [hbody]
  cases body with
  | model fields extras =>
    have hinst : isInstance Γ .model cls s.value = false := isInstance_eq_false (by decide) hs
    dsimp only
    rw [hinst, if_neg Bool.false_ne_true]
    cases hv : s.value <;> first | exact ⟨_, rfl⟩ | simp_all [Value.outline?]
  | data fields =>
    have hinst : isInstance Γ .data cls s.value = false := isInstance_eq_false (by decide) hs
    dsimp only
    rw [hinst, if_neg Bool.false_ne_true]
    cases hv : s.value <;> first | exact ⟨_, rfl⟩ | simp_all [Value.outline?]
  | namedTuple => cases hrec
  | enumeration => cases hrec
  | plain => cases hrec

/-- Members that are texts or integers are named by nothing but scalars. -/
theorem checkMember_refused {cls : String} {mixin : Mixin} {members : List (String × Value)}
    {w : Value} (hx : mixin ≠ .plain) (hw : w.outline? ≠ some .scalar) (hn : w ≠ .none) :
    Refused (checkMember m w cls mixin members) := by
  cases w <;> first | exact absurd rfl hw | exact absurd rfl hn | skip
  all_goals cases mixin <;> cases m <;> first | exact absurd rfl hx | exact ⟨_, rfl⟩

/-- A value of one outline is refused by a type that is read from another. -/
theorem check_refused {outline : Outline} (hm : m ≠ .lax) (hT : T.outline? Γ = some outline)
    (hs : s.value.outline? ≠ some outline) (hn : s.value ≠ .none) : Refused (check Γ m s T) := by
  cases T with
  | primitive p =>
    cases p with
    | list => cases hT; exact checkItems_refused hm hs _ _
    | set => cases hT; exact checkItems_refused hm hs _ _
    | tuple => cases hT; exact checkItems_refused hm hs _ _
    | dict => cases hT; exact checkDict_refused hs _ _
    | noneType => cases hT
    | _ => cases hT; exact checkPrimitive_refused hs hn _
  | named cls =>
    obtain ⟨body, hbody, houtline⟩ := Option.bind_eq_some_iff.mp hT
    cases body with
    | model fields extras =>
      cases houtline
      exact checkNamed_refused_record (by rw [hbody]; rfl) hs
    | data fields =>
      cases houtline
      exact checkNamed_refused_record (by rw [hbody]; rfl) hs
    | enumeration mixin members =>
      change Refused (checkNamed Γ m s cls)
      unfold checkNamed
      rw [hbody]
      cases mixin with
      | plain => cases houtline
      | text => cases houtline; exact checkMember_refused (by decide) hs hn
      | integer => cases houtline; exact checkMember_refused (by decide) hs hn
    | namedTuple fields => cases houtline
    | plain => cases houtline
  | list => cases hT; exact checkItems_refused hm hs _ _
  | set => cases hT; exact checkItems_refused hm hs _ _
  | frozenSet => cases hT; exact checkItems_refused hm hs _ _
  | tupleOf => cases hT; exact checkItems_refused hm hs _ _
  | tuple => cases hT; exact checkTuple_refused hm hs _
  | dict => cases hT; exact checkDict_refused hs _ _
  | _ => cases hT

theorem both_refused {α β γ : Type} {f : α → β → γ} {x : Checked α} (h : Refused x)
    (y : Checked β) : Refused (both f x y) := by
  obtain ⟨fs, rfl⟩ := h
  cases y <;> exact ⟨_, rfl⟩

theorem collect_refused {α : Type} {rs : List (Checked α)} {r : Checked α} (hr : r ∈ rs)
    (h : Refused r) : Refused (collect rs) := by
  induction rs with
  | nil => cases hr
  | cons x rest ih =>
    rcases List.mem_cons.mp hr with rfl | hmem
    · exact both_refused h _
    · obtain ⟨fs, hfs⟩ := ih hmem
      unfold collect
      rw [hfs]
      cases x <;> exact ⟨_, rfl⟩

/-- An object without a field that has to be given is refused. -/
theorem checkRecord_refused {kind : RecordKind} {cls : String} {e : Exactness} {extras : Extras}
    {defs : List FieldDef} {entries : List (Value × Answer × Answer)} {f : FieldDef} (hf : f ∈ defs)
    (hd : f.default = none) (hx : ∀ x ∈ entries, x.1.text? ≠ some f.given) :
    Refused (checkRecord kind cls e extras defs entries) := by
  have hfind : entries.reverse.find? (fun x => x.1.text? == some f.given) = none := by
    refine List.find?_eq_none.mpr fun x hmem => ?_
    simpa using hx x (List.mem_reverse.mp hmem)
  have hfield : Refused (checkField entries f) := by
    unfold checkField entry?
    rw [hfind, hd]
    exact ⟨_, rfl⟩
  exact both_refused (collect_refused (List.mem_map_of_mem hf) hfield) _

theorem exists_body {f : FieldDef} (hf : f ∈ T.fields Γ) :
    ∃ cls kind defs, T = .named cls ∧ f ∈ defs ∧
      (Γ.body? cls).bind ClassBody.record? = some (kind, defs) := by
  cases T with
  | named cls =>
    change f ∈ (((Γ.body? cls).bind ClassBody.record?).map (·.2)).getD [] at hf
    cases hb : (Γ.body? cls).bind ClassBody.record? with
    | none => simp [hb] at hf
    | some r =>
      rw [hb] at hf
      exact ⟨cls, r.1, r.2, rfl, hf, hb⟩
  | _ => cases hf

/-- A record is accepted as it stands by the classes of which it is an instance, and by no
others. -/
theorem checkNamed_record {cls cls' : String} {kind kind' : RecordKind} {defs : List FieldDef}
    {values : List (String × Value)}
    (hb : (Γ.body? cls).bind ClassBody.record? = some (kind, defs))
    (hs : s.value = .record kind' cls' values) :
    Offers (checkNamed Γ m s cls) (.record kind' cls' values) := by
  obtain ⟨body, hbody, hrec⟩ := Option.bind_eq_some_iff.mp hb
  unfold checkNamed
  rw [hbody, hs]
  cases body with
  | model fields extras =>
    dsimp only
    split
    · exact .inl ⟨_, rfl⟩
    · exact .inr ⟨_, rfl⟩
  | data fields =>
    dsimp only
    split
    · exact .inl ⟨_, rfl⟩
    · exact .inr ⟨_, rfl⟩
  | namedTuple => cases hrec
  | enumeration => cases hrec
  | plain => cases hrec

/-- A type to which a value is foreign accepts no other value in its place. -/
theorem offers_of_foreign (hv : v ≠ .none) (hf : TypeExpr.Foreign Γ v T) :
    Offers (answer Γ .strict v T) v := by
  obtain ⟨s, hs, hcheck⟩ := exists_subject Γ .strict v
  rw [hcheck, check_bare]
  subst hs
  rcases hf with ⟨outline, hT, hne⟩ | ⟨kind, cls, values, hs, -, f, hmem, -⟩
  · exact .inr (check_refused (by decide) hT hne hv)
  · obtain ⟨cls', kind', defs, hT, -, hb⟩ := exists_body hmem
    rw [hT, hs]
    exact checkNamed_record hb hs

/-- A type to which a value is foreign does not read its data. -/
theorem refused_of_foreign {w : Value} (ha : Value.Alike v w) (hv : v ≠ .none)
    (hf : TypeExpr.Foreign Γ v T) : Refused (answer Γ .data w T) := by
  rcases hf with ⟨outline, hT, hne⟩ | ⟨kind, cls, values, hs, hkind, f, hmem, hd, hgiven⟩
  · obtain ⟨s, hs, hcheck⟩ := exists_subject Γ .data w
    rw [hcheck, check_bare]
    rw [← ha.outline, ← hs] at hne
    exact check_refused (by decide) hT hne (hs ▸ ha.ne_none hv)
  · obtain ⟨entries, rfl, hnames⟩ := ha.fields hs hkind
    obtain ⟨cls', kind', defs, hT, hfmem, hb⟩ := exists_body hmem
    have hx : ∀ x ∈ entryAnswers Γ .data entries, x.1.text? ≠ some f.given := by
      intro x hxmem
      rw [entryAnswers_eq_map] at hxmem
      obtain ⟨e, he, rfl⟩ := List.mem_map.mp hxmem
      have hkey : e.1 ∈ values.map fun f => Value.str f.1 := hnames ▸ List.mem_map_of_mem he
      obtain ⟨x, hxval, hxe⟩ := List.mem_map.mp hkey
      dsimp only
      rw [← hxe]
      intro heq
      have hname : x.1 = f.given := Option.some.inj heq
      exact hgiven (hname ▸ List.mem_map_of_mem hxval)
    change Refused (check Γ .data
      { value := .dict entries, entries := entryAnswers Γ .data entries } T)
    rw [check_bare, hT]
    change Refused (checkNamed Γ .data
      { value := .dict entries, entries := entryAnswers Γ .data entries } cls')
    obtain ⟨body, hbody, hrec⟩ := Option.bind_eq_some_iff.mp hb
    unfold checkNamed
    rw [hbody]
    cases body with
    | model fields extras =>
      cases hrec
      exact checkRecord_refused hfmem hd hx
    | data fields =>
      cases hrec
      exact checkRecord_refused hfmem hd hx
    | namedTuple => cases hrec
    | enumeration => cases hrec
    | plain => cases hrec

end WorkflowClient.Validation
