import WorkflowClient.Proofs.Matching
import WorkflowClient.Proofs.Payload.Reads
import WorkflowClient.Proofs.Value.Parts

/-! Containers, records and unions are read from the data of their parts. -/
namespace WorkflowClient

namespace Payload
open Validation (Gives)

variable {Γ : Catalog} {T : TypeExpr} {v : Value} {j : Json}

theorem nestingItems_eq {items : List Value} {js : List Json}
    (h : List.Forall₂ (fun v j => j.nesting = v.nesting) items js) :
    Json.nestingItems js = Value.nestingItems items := by
  induction h with
  | nil => rfl
  | cons hv _ ih => rw [Json.nestingItems, Value.nestingItems, hv, ih]

/-- Values and definitions of fields that go by the same names are paired by name. -/
theorem name_of_mem_zip {values : List (String × Value)} {defs : List FieldDef}
    (hl : values.map (·.1) = defs.map (·.name)) {p : (String × Value) × FieldDef}
    (hp : p ∈ values.zip defs) : p.2.name = p.1.1 := by
  induction values generalizing defs with
  | nil => cases hp
  | cons x values ih =>
    cases defs with
    | nil => cases hp
    | cons f defs =>
      rw [List.map_cons, List.map_cons, List.cons.injEq] at hl
      rcases List.mem_cons.mp hp with rfl | hmem
      · exact hl.1.symm
      · exact ih hl.2 hmem

/-- An array with the answers of its items. -/
def arraySubject (Γ : Catalog) (js : List Json) : Validation.Subject where
  value := .sequence .list (Value.ofJsonItems js)
  items := Validation.answers Γ .data (Value.ofJsonItems js)

theorem arraySubject_items (js : List Json) :
    (arraySubject Γ js).items = js.map fun j => Validation.answer Γ .data (.ofJson j) := by
  unfold arraySubject
  rw [Value.ofJsonItems_eq_map, Validation.answers_eq_map, List.map_map]
  rfl

theorem arraySubject_gives {items : List Value} {js : List Json}
    (h : List.Forall₂ (Reads Γ T) items js) :
    List.Forall₂ (fun (a : Validation.Answer) v => Gives (a T) v) (arraySubject Γ js).items
      items := by
  rw [arraySubject_items, List.forall₂_map_left_iff]
  exact h.flip.imp fun _ _ hr => hr.gives

/-- Data of the items makes data of the sequence, if the type reads it as one. -/
theorem Reads.items {U : TypeExpr} {kind : SequenceKind} {items : List Value} {js : List Json}
    (h : List.Forall₂ (Reads Γ T) items js)
    (hg : Gives (Validation.answer Γ .data (.ofJson (.array js)) U) (.sequence kind items)) :
    Reads Γ U (.sequence kind items) (.array js) where
  legible := .array (forall_mem_right h fun _ _ hr => hr.legible)
  nesting := by
    rw [Json.nesting, Value.nesting, nestingItems_eq (h.imp fun _ _ hr => hr.nesting)]
  gives := hg
  alike := .of_outline rfl nofun

theorem Reads.list {spelling : Spelling} {items : List Value} {js : List Json}
    (h : List.Forall₂ (Reads Γ T) items js) :
    Reads Γ (.list spelling T) (.sequence .list items) (.array js) := by
  refine .items h ?_
  change Gives (Validation.checkItems Γ .data .list (arraySubject Γ js) T) _
  exact Validation.checkItems_gives rfl (by decide) (by decide) (arraySubject_gives h)

theorem Reads.tupleOf {items : List Value} {js : List Json}
    (h : List.Forall₂ (Reads Γ T) items js) :
    Reads Γ (.tupleOf T) (.sequence .tuple items) (.array js) := by
  refine .items h ?_
  change Gives (Validation.checkItems Γ .data .tuple (arraySubject Γ js) T) _
  exact Validation.checkItems_gives rfl (by decide) (by decide) (arraySubject_gives h)

theorem Reads.set {items : List Value} {js : List Json} (hs : SetItems Γ items)
    (h : List.Forall₂ (Reads Γ T) items js) :
    Reads Γ (.set T) (.sequence .set items) (.array js) := by
  refine .items h ?_
  change Gives (Validation.checkItems Γ .data .set (arraySubject Γ js) T) _
  exact Validation.checkItems_gives_set rfl hs.hashable hs.distinct (arraySubject_gives h)

theorem Reads.frozenSet {items : List Value} {js : List Json} (hs : SetItems Γ items)
    (h : List.Forall₂ (Reads Γ T) items js) :
    Reads Γ (.frozenSet T) (.sequence .frozenSet items) (.array js) := by
  refine .items h ?_
  change Gives (Validation.checkItems Γ .data .frozenSet (arraySubject Γ js) T) _
  exact Validation.checkItems_gives_set rfl hs.hashable hs.distinct (arraySubject_gives h)

theorem Reads.tuple {items : List Value} {Ts : List TypeExpr} {js : List Json}
    (hl : items.length = Ts.length)
    (h : List.Forall₂ (fun (p : Value × TypeExpr) j => Reads Γ p.2 p.1 j) (items.zip Ts) js) :
    Reads Γ (.tuple Ts) (.sequence .tuple items) (.array js) where
  legible := .array (forall_mem_right h fun _ _ hr => hr.legible)
  nesting := by
    have hzip : (items.zip Ts).map (·.1) = items := List.map_fst_zip (by omega)
    have hitems : List.Forall₂ (fun (v : Value) (j : Json) => j.nesting = v.nesting) items js := by
      rw [← hzip, List.forall₂_map_left_iff]
      exact h.imp fun _ _ hr => hr.nesting
    rw [Json.nesting, Value.nesting, nestingItems_eq hitems]
  gives := by
    change Gives (Validation.checkTuple Γ .data (arraySubject Γ js) Ts) _
    have hjs := h.length_eq
    rw [List.length_zip] at hjs
    refine Validation.checkTuple_gives rfl ?_ ?_
    · rw [arraySubject_items, List.length_map]
      omega
    · rw [arraySubject_items]
      refine Validation.zipItems_gives hl ?_
      rw [List.forall₂_map_right_iff]
      exact h.imp fun _ _ hr => hr.gives
  alike := .of_outline rfl nofun

/-- An object with the answers of its members. -/
def objectSubject (Γ : Catalog) (members : List (String × Json)) : Validation.Subject where
  value := .dict (Value.ofJsonMembers members)
  entries := Validation.entryAnswers Γ .data (Value.ofJsonMembers members)

theorem objectSubject_entries (members : List (String × Json)) :
    (objectSubject Γ members).entries = members.map fun m =>
      (.str m.1, Validation.answer Γ .data (.str m.1),
        Validation.answer Γ .data (.ofJson m.2)) := by
  unfold objectSubject
  rw [Value.ofJsonMembers_eq_map, Validation.entryAnswers_eq_map, List.map_map]
  rfl

theorem nestingMembers_eq {values : List Value} {members : List (String × Json)}
    (h : List.Forall₂ (fun (v : Value) (m : String × Json) => m.2.nesting = v.nesting) values
      members) : Json.nestingMembers members = Value.nestingItems values := by
  induction h with
  | nil => rfl
  | cons hv _ ih => rw [Json.nestingMembers, Value.nestingItems, hv, ih]

theorem nestingEntries_eq (entries : List (Value × Value)) :
    Value.nestingEntries entries = Value.nestingItems (entries.map (·.2)) := by
  induction entries with
  | nil => rfl
  | cons e rest ih => rw [Value.nestingEntries, ih, List.map_cons, Value.nestingItems]

theorem nestingFields_eq (fields : List (String × Value)) :
    Value.nestingFields fields = Value.nestingItems (fields.map (·.2)) := by
  induction fields with
  | nil => rfl
  | cons f rest ih => rw [Value.nestingFields, ih, List.map_cons, Value.nestingItems]

theorem Reads.dict {spelling : Spelling} {K : Primitive} {entries : List (Value × Value)}
    {js : List (String × Json)} (hu : Json.Unrepeated entries) (hk : ∀ e ∈ entries, Key K e.1)
    (h : List.Forall₂ (fun (e : Value × Value) j => e.1.text = j.1 ∧ Reads Γ T e.2 j.2) entries
      js) :
    Reads Γ (.dict spelling (.primitive K) T) (.dict entries) (.object js) where
  legible := .object (forall_mem_right h fun _ _ hr => hr.2.legible)
  nesting := by
    rw [Json.nesting, Value.nesting, nestingEntries_eq]
    refine nestingMembers_eq ?_
    rw [List.forall₂_map_left_iff]
    exact h.imp fun _ _ hr => hr.2.nesting
  gives := by
    change Gives (Validation.checkDict (objectSubject Γ js) (.primitive K) T) _
    refine Validation.checkDict_gives rfl ?_ hu
    rw [objectSubject_entries, List.forall₂_map_left_iff]
    refine ((List.forall₂_and_left _ _).mpr ⟨hk, h⟩).flip.imp fun j e hr => ⟨?_, hr.2.2.gives⟩
    dsimp only
    rw [← hr.2.1]
    exact gives_key hr.1
  alike := .of_outline rfl nofun

theorem entry?_of_mem {js : List (String × Json)} {m : String × Json}
    (hn : (js.map (·.1)).Nodup) (hm : m ∈ js) :
    Validation.entry? (objectSubject Γ js).entries m.1 =
      some (Validation.answer Γ .data (.ofJson m.2)) := by
  have hnr : (js.reverse.map (·.1)).Nodup := by
    rw [List.map_reverse]
    exact (List.reverse_perm _).nodup_iff.mpr hn
  have hfind := find?_of_nodup hnr (List.mem_reverse.mpr hm)
  rw [Validation.entry?, objectSubject_entries, ← List.map_reverse, List.find?_map]
  change Option.map _ (Option.map _ (js.reverse.find? fun x => some x.1 == some m.1)) = _
  simp only [Option.some_beq_some, hfind]
  rfl

theorem extraFaults_eq_nil {defs : List FieldDef} {js : List (String × Json)}
    (h : ∀ m ∈ js, ∃ f ∈ defs, f.given = m.1) :
    Validation.extraFaults defs (objectSubject Γ js).entries = [] := by
  rw [objectSubject_entries]
  induction js with
  | nil => rfl
  | cons m rest ih =>
    obtain ⟨f, hf, hgiven⟩ := h m (by simp)
    have hany : defs.any (fun f => f.given == m.1) = true :=
      List.any_eq_true.mpr ⟨f, hf, by simp [hgiven]⟩
    have hrest := ih fun x hx => h x (List.mem_cons_of_mem _ hx)
    rw [List.map_cons, Validation.extraFaults]
    simp [Value.text?, hany, hrest]

/-- The fields of a record under their own names. -/
theorem Reads.record {kind : RecordKind} {cls : String} {defs : List FieldDef}
    {values : List (String × Value)} {js : List (String × Json)}
    (hb : (Γ.body? cls).bind ClassBody.record? = some (kind, defs))
    (hn : (defs.map (·.name)).Nodup) (ha : ∀ d ∈ defs, d.inputName = none)
    (hl : values.map (·.1) = defs.map (·.name))
    (h : List.Forall₂ (fun (p : (String × Value) × FieldDef) j => p.1.1 = j.1 ∧
      Reads Γ p.2.type p.1.2 j.2) (values.zip defs) js) :
    Reads Γ (.named cls) (.record kind cls values) (.object js) := by
  have hlen : values.length = defs.length := by simpa using congrArg List.length hl
  have hvalues : (values.zip defs).map (·.1) = values := List.map_fst_zip (by omega)
  have hdefs : (values.zip defs).map (·.2) = defs := List.map_snd_zip (by omega)
  have hnames : js.map (·.1) = values.map (·.1) := by
    rw [← hvalues, List.map_map]
    clear hvalues hdefs hlen hb
    generalize values.zip defs = ps at h
    induction h with
    | nil => rfl
    | cons hp _ ih => rw [List.map_cons, List.map_cons, ih, ← hp.1]; rfl
  have hnjs : (js.map (·.1)).Nodup := by rw [hnames, hl]; exact hn
  have hfields : List.Forall₂ (fun (f : FieldDef) (x : String × Value) => f.name = x.1 ∧
      ∃ a, Validation.entry? (objectSubject Γ js).entries f.given = some a ∧ Gives (a f.type) x.2)
      defs values := by
    have hzip : List.Forall₂ (fun (f : FieldDef) (x : String × Value) => f.name = x.1 ∧
        ∃ a, Validation.entry? (objectSubject Γ js).entries f.given = some a ∧ Gives (a f.type) x.2)
        ((values.zip defs).map (·.2)) ((values.zip defs).map (·.1)) := by
      rw [List.forall₂_map_left_iff, List.forall₂_map_right_iff, List.forall₂_same]
      intro p hp
      obtain ⟨j, hj, hname, hreads⟩ := exists_mem_right h p hp
      have hf : p.2.name = p.1.1 := name_of_mem_zip hl hp
      have hgiven : p.2.given = j.1 := by
        rw [FieldDef.given, ha p.2 (List.of_mem_zip hp).2, ← hname, ← hf]
        rfl
      refine ⟨hf, _, ?_, hreads.gives⟩
      rw [hgiven]
      exact entry?_of_mem hnjs hj
    rwa [hvalues, hdefs] at hzip
  have hextra : Validation.extraFaults defs (objectSubject Γ js).entries = [] := by
    refine extraFaults_eq_nil fun m hm => ?_
    have hmem : m.1 ∈ defs.map (·.name) := by
      rw [← hl, ← hnames]
      exact List.mem_map_of_mem hm
    obtain ⟨f, hf, hname⟩ := List.mem_map.mp hmem
    exact ⟨f, hf, by rw [FieldDef.given, ha f hf]; exact hname⟩
  refine ⟨.object (forall_mem_right h fun _ _ hr => hr.2.legible), ?_, ?_, ?_⟩
  · rw [Json.nesting, Value.nesting, nestingFields_eq, ← hvalues, List.map_map]
    refine nestingMembers_eq ?_
    rw [List.forall₂_map_left_iff]
    exact h.imp fun _ _ hr => hr.2.nesting
  · change Gives (Validation.checkNamed Γ .data (objectSubject Γ js) cls) _
    unfold Validation.checkNamed
    obtain ⟨body, hbody, hrec⟩ := Option.bind_eq_some_iff.mp hb
    rw [hbody]
    cases body with
    | model fields extras =>
      cases hrec
      exact Validation.checkRecord_gives hfields hextra
    | data fields =>
      cases hrec
      exact Validation.checkRecord_gives hfields hextra
    | namedTuple => cases hrec
    | enumeration => cases hrec
    | plain => cases hrec
  · obtain ⟨body, -, hrec⟩ := Option.bind_eq_some_iff.mp hb
    refine ⟨(outline?_of_record hrec cls values).symm, fun heq _ => ⟨_, rfl, ?_⟩⟩
    cases heq
    have htexts := congrArg (List.map Value.str) hnames
    rw [List.map_map, List.map_map] at htexts
    rw [Value.ofJsonMembers_eq_map, List.map_map]
    exact htexts

/-- The items of a named tuple in the order of its fields. -/
theorem Reads.namedTuple {cls : String} {defs : List FieldDef} {values : List (String × Value)}
    {js : List Json} (hb : Γ.body? cls = some (.namedTuple defs))
    (hl : values.map (·.1) = defs.map (·.name))
    (h : List.Forall₂ (fun (p : (String × Value) × FieldDef) j => Reads Γ p.2.type p.1.2 j)
      (values.zip defs) js) :
    Reads Γ (.named cls) (.record .tuple cls values) (.array js) where
  legible := .array (forall_mem_right h fun _ _ hr => hr.legible)
  nesting := by
    have hlen : values.length = defs.length := by simpa using congrArg List.length hl
    have hvalues : (values.zip defs).map (·.1) = values := List.map_fst_zip (by omega)
    have hitems : List.Forall₂ (fun (v : Value) (j : Json) => j.nesting = v.nesting)
        (values.map (·.2)) js := by
      rw [← hvalues, List.forall₂_map_left_iff, List.forall₂_map_left_iff]
      exact h.imp fun _ _ hr => hr.nesting
    rw [Json.nesting, Value.nesting, nestingFields_eq, nestingItems_eq hitems]
  gives := by
    have hlen : values.length = defs.length := by simpa using congrArg List.length hl
    have hjs := h.length_eq
    rw [List.length_zip] at hjs
    have hitems : (arraySubject Γ js).items.length = defs.length := by
      rw [arraySubject_items, List.length_map]
      omega
    change Gives (Validation.checkNamed Γ .data (arraySubject Γ js) cls) _
    unfold Validation.checkNamed
    rw [hb]
    refine Validation.checkPositions_gives hl hitems (Validation.zipItems_gives (by simp [hlen]) ?_)
    rw [List.zip_map, List.forall₂_map_left_iff, arraySubject_items, List.forall₂_map_right_iff]
    exact h.imp fun _ _ hr => hr.gives
  alike := .of_outline rfl fun _ _ _ heq => by cases heq; rfl

theorem Reads.annotated {metadata : List Value} (h : Reads Γ T v j) :
    Reads Γ (.annotated T metadata) v j := by
  obtain ⟨s, -, hcheck⟩ := Validation.exists_subject Γ .data (.ofJson j)
  refine ⟨h.legible, h.nesting, ?_, h.alike⟩
  have hgives := h.gives
  rw [hcheck] at hgives ⊢
  exact hgives

theorem Reads.descriptor (h : Reads Γ T v j) : Reads Γ (.descriptor T) v j := by
  obtain ⟨s, -, hcheck⟩ := Validation.exists_subject Γ .data (.ofJson j)
  refine ⟨h.legible, h.nesting, ?_, h.alike⟩
  have hgives := h.gives
  rw [hcheck] at hgives ⊢
  exact hgives

/-- An enumeration's own member is found again by its value. -/
theorem find?_of_distinct {mixin : Mixin} {members : List (String × Value)} {name : String}
    {value : Value} (hd : Distinct mixin members) (hm : (name, value) ∈ members) :
    members.find? (fun d => value == d.2) = some (name, value) := by
  cases hd with
  | @texts names _ h =>
    obtain ⟨n, hn, heq⟩ := List.mem_map.mp hm
    cases heq
    have hkey : (fun d : String × Value => Value.str n.2 == d.2) ∘ (fun n => (n.1, .str n.2)) =
        fun x : String × String => x.2 == n.2 := by
      funext x
      rw [Bool.eq_iff_iff]
      change (Value.str n.2 == Value.str x.2) = true ↔ _
      rw [Value.str_beq_iff, beq_iff_eq, eq_comm]
    rw [List.find?_map, hkey, find?_of_nodup h hn]
    rfl
  | @integers names _ h _ =>
    obtain ⟨n, hn, heq⟩ := List.mem_map.mp hm
    cases heq
    have hkey : (fun d : String × Value => Value.int n.2 == d.2) ∘ (fun n => (n.1, .int n.2)) =
        fun x : String × Int => x.2 == n.2 := by
      funext x
      rw [Bool.eq_iff_iff]
      change (Value.int n.2 == Value.int x.2) = true ↔ _
      rw [Value.int_beq_iff, beq_iff_eq, eq_comm]
    rw [List.find?_map, hkey, find?_of_nodup h hn]
    rfl

theorem Reads.member_str {mixin : Mixin} {cls name s : String} {members : List (String × Value)}
    (hb : Γ.body? cls = some (.enumeration mixin members)) (hm : mixin ≠ .integer)
    (hf : members.find? (fun d => Value.str s == d.2) = some (name, .str s)) :
    Reads Γ (.named cls) (.member mixin cls name (.str s)) (.str s) := by
  refine ⟨.str s, rfl, ⟨⟨.lax, none⟩, ?_⟩, .of_outline rfl nofun⟩
  change Validation.checkNamed Γ .data { value := .str s } cls = _
  unfold Validation.checkNamed
  rw [hb]
  cases mixin with
  | plain => simp [Validation.checkMember, hf]
  | text => simp [Validation.checkMember, Validation.checkStr, hf]
  | integer => exact absurd rfl hm

theorem Reads.member_int {mixin : Mixin} {cls name : String} {n : Int}
    {members : List (String × Value)} (hb : Γ.body? cls = some (.enumeration mixin members))
    (hm : mixin ≠ .text) (hw : Number.writable n = true)
    (hf : members.find? (fun d => Value.int n == d.2) = some (name, .int n)) :
    Reads Γ (.named cls) (.member mixin cls name (.int n)) (.int n) := by
  refine ⟨.int hw, rfl, ⟨⟨.lax, none⟩, ?_⟩, .of_outline rfl nofun⟩
  change Validation.checkNamed Γ .data { value := .int n } cls = _
  unfold Validation.checkNamed
  rw [hb]
  cases mixin with
  | plain => simp [Validation.checkMember, hf]
  | text => exact absurd rfl hm
  | integer => simp [Validation.checkMember, Validation.checkInt, hf]

/-- An enumeration's member is read from its value. -/
theorem Reads.member {mixin : Mixin} {cls name : String} {members : List (String × Value)}
    {value : Value} (hb : Γ.body? cls = some (.enumeration mixin members))
    (hd : Distinct mixin members) (hm : (name, value) ∈ members) :
    ∃ j, jsonable Γ (.member mixin cls name value) = .ok (.ofJson j) ∧
      (dumper Γ value).inferred = .ok j ∧ Reads Γ (.named cls) (.member mixin cls name value) j := by
  have hf := find?_of_distinct hd hm
  cases hd with
  | texts hmix h =>
    obtain ⟨n, hn, heq⟩ := List.mem_map.mp hm
    cases heq
    exact ⟨.str n.2, by cases mixin <;> rfl, rfl, Reads.member_str hb hmix hf⟩
  | integers hmix h hw =>
    obtain ⟨n, hn, heq⟩ := List.mem_map.mp hm
    cases heq
    exact ⟨.int n.2, by cases mixin <;> rfl, rfl, Reads.member_int hb hmix (hw n hn) hf⟩

theorem Reads.absent {spelling : Spelling} {Ts : List TypeExpr} (h : TypeExpr.noneType ∈ Ts) :
    Reads Γ (.union spelling Ts) .none .null := by
  refine ⟨.null, rfl, ⟨.exact, ?_⟩, .of_outline rfl nofun⟩
  have hany : Ts.any (·.isNull) = true := List.any_eq_true.mpr ⟨_, h, rfl⟩
  change Validation.check Γ .data { value := .none } (.union spelling Ts) = _
  simp [Validation.check, hany, Validation.Standing.exact]

/-- Members of a union that do not read the value read nothing else from its data. -/
theorem Reads.present {spelling : Spelling} {Ts : List TypeExpr} (hv : v ≠ .none)
    (hT : ∃ T ∈ Ts, T.isNull = false ∧ Reads Γ T v j)
    (h : ∀ T ∈ Ts, T.isNull = false → Reads Γ T v j ∨ TypeExpr.Foreign Γ v T) :
    Reads Γ (.union spelling Ts) v j := by
  obtain ⟨T, hmem, hnull, hr⟩ := hT
  have hothers : ∀ U ∈ Ts, U.isNull = false →
      Validation.Offers (Validation.answer Γ .data (.ofJson j) U) v := by
    intro U hU hUnull
    rcases h U hU hUnull with hread | hf
    · exact .inl hread.gives
    · exact .inr (Validation.refused_of_foreign hr.alike hv hf)
  refine ⟨hr.legible, hr.nesting, ?_, hr.alike⟩
  have hthis := hr.gives
  obtain ⟨s, hs, hcheck⟩ := Validation.exists_subject Γ .data (.ofJson j)
  simp only [hcheck] at hothers hthis ⊢
  exact Validation.checkUnion_gives (hs ▸ hr.alike.ne_none hv) ⟨T, hmem, hnull, hthis⟩ hothers

theorem Reads.native {spelling : Spelling} {Ts : List TypeExpr} {p : Primitive}
    (hn : Value.Native p v) (hr : Reads Γ (.primitive p) v j) (hj : Value.ofJson j = v)
    (hT : .primitive p ∈ Ts) (h : ∀ T ∈ Ts, T.modest = true) :
    Reads Γ (.union spelling Ts) v j := by
  refine ⟨hr.legible, hr.nesting, ?_, hr.alike⟩
  have hgives : Gives (Validation.check Γ .data { value := v } (.union spelling Ts)) v :=
    Validation.checkUnion_gives_native (by decide) hn hT h
  rw [hj]
  cases hn <;> exact hgives

end Payload
end WorkflowClient
