import Mathlib.Data.Option.NAry
import WorkflowClient.Proofs.Payload.RoundTrip
import WorkflowClient.Proofs.Validation.Given
import WorkflowClient.Validation.Check

/-! Models whose fields expect other names in input. Fields are written under their own names, so
that what such a field held is not found again. -/
namespace WorkflowClient

/-- Whether every member of input for the class has to name a field. -/
def ClassBody.closed : ClassBody → Bool
  | .model _ .forbidden => true
  | _ => false

/-- Whether input may have members under the fields' own names. -/
def FieldDef.covers (defs : List FieldDef) : Bool :=
  defs.all fun d => defs.any fun e => e.given == d.name

/-- The types whose values come back part by part. -/
def TypeExpr.hasParts : TypeExpr → Bool
  | .list .. | .dict .. | .named _ => true
  | _ => false

namespace Payload
open Validation (Gives)

/-- What a field that expects another name finds among the members of its own record: what the field
of that name left there, or nothing, and then it takes its default. -/
def secondhand (Γ : Catalog) (members : List (String × Encoded)) (d : FieldDef) (name : String) :
    Option Value :=
  match members.find? (·.1 == name) with
  | some (_, .ok j) => (Validation.validate Γ .data (.ofJson j) d.type).toOption
  | _ => d.default

mutual

/-- What a value comes back as from its data, if it comes back. -/
def reread (Γ : Catalog) : Value → TypeExpr → Option Value
  | .sequence .list items, .list _ T => (rereadItems Γ items T).map (.sequence .list)
  | .dict entries, .dict _ _ T => (rereadEntries Γ entries T).map .dict
  | .record kind cls fields, .named name =>
    match Γ.body? name with
    | some body => match body.record? with
      | some (_, defs) =>
        if body.closed && !FieldDef.covers defs then none
        else (rereadFields Γ (declaredFields defs (fieldDumpers Γ fields)) fields defs).map
          (.record kind cls)
      | none => some (.record kind cls fields)
    | none => some (.record kind cls fields)
  | v, _ => some v

def rereadItems (Γ : Catalog) : List Value → TypeExpr → Option (List Value)
  | [], _ => some []
  | v :: rest, T => Option.map₂ List.cons (reread Γ v T) (rereadItems Γ rest T)

def rereadEntries (Γ : Catalog) : List (Value × Value) → TypeExpr → Option (List (Value × Value))
  | [], _ => some []
  | (k, v) :: rest, T =>
    Option.map₂ (fun w more => (k, w) :: more) (reread Γ v T) (rereadEntries Γ rest T)

def rereadFields (Γ : Catalog) (members : List (String × Encoded)) :
    List (String × Value) → List FieldDef → Option (List (String × Value))
  | (n, v) :: rest, d :: defs =>
    let refill := match d.inputName with
      | none => reread Γ v d.type
      | some name => secondhand Γ members d name
    Option.map₂ (fun w more => (n, w) :: more) refill (rereadFields Γ members rest defs)
  | _, _ => some []

end

/-- What a field comes back as. -/
def refill (Γ : Catalog) (members : List (String × Encoded)) (p : (String × Value) × FieldDef) :
    Option Value :=
  match p.2.inputName with
  | none => reread Γ p.1.2 p.2.type
  | some name => secondhand Γ members p.2 name

variable {Γ : Catalog} {T : TypeExpr} {v : Value} {j : Json}

theorem rereadItems_eq_some {items ws : List Value} : rereadItems Γ items T = some ws ↔
    List.Forall₂ (fun v w => reread Γ v T = some w) items ws := by
  induction items generalizing ws with
  | nil => simp [rereadItems, eq_comm]
  | cons v rest ih =>
    rw [rereadItems, Option.map₂_eq_some_iff]
    constructor
    · rintro ⟨w, more, hw, hmore, rfl⟩
      exact .cons hw (ih.mp hmore)
    · rintro (_ | ⟨hw, hmore⟩)
      exact ⟨_, _, hw, ih.mpr hmore, rfl⟩

theorem rereadEntries_eq_some {entries ws : List (Value × Value)} :
    rereadEntries Γ entries T = some ws ↔
      List.Forall₂ (fun e w => e.1 = w.1 ∧ reread Γ e.2 T = some w.2) entries ws := by
  induction entries generalizing ws with
  | nil => simp [rereadEntries, eq_comm]
  | cons e rest ih =>
    rw [rereadEntries, Option.map₂_eq_some_iff]
    constructor
    · rintro ⟨w, more, hw, hmore, rfl⟩
      exact .cons ⟨rfl, hw⟩ (ih.mp hmore)
    · rintro (_ | ⟨⟨hk, hw⟩, hmore⟩)
      exact ⟨_, _, hw, ih.mpr hmore, by rw [hk]⟩

theorem rereadFields_eq_some {members : List (String × Encoded)} {fields ws : List (String × Value)}
    {defs : List FieldDef} : rereadFields Γ members fields defs = some ws ↔
      List.Forall₂ (fun p w => p.1.1 = w.1 ∧ refill Γ members p = some w.2) (fields.zip defs) ws := by
  induction fields generalizing defs ws with
  | nil => simp [rereadFields, eq_comm]
  | cons f rest ih =>
    cases defs with
    | nil => simp [rereadFields, eq_comm]
    | cons d defs =>
      rw [rereadFields, List.zip_cons_cons, Option.map₂_eq_some_iff]
      constructor
      · rintro ⟨w, more, hw, hmore, rfl⟩
        exact .cons ⟨rfl, hw⟩ (ih.mp hmore)
      · rintro (_ | ⟨⟨hn, hw⟩, hmore⟩)
        exact ⟨_, _, hw, ih.mpr hmore, by rw [hn]⟩

theorem reread_eq_self (h : T.hasParts = false) : reread Γ v T = some v := by
  unfold reread
  split <;> first | rfl | cases h

theorem reread_record {kind : RecordKind} {cls : String} {body : ClassBody} {defs : List FieldDef}
    {values : List (String × Value)} (hbody : Γ.body? cls = some body)
    (hrec : body.record? = some (kind, defs)) : reread Γ (.record kind cls values) (.named cls) =
      if body.closed && !FieldDef.covers defs then none
      else (rereadFields Γ (declaredFields defs (fieldDumpers Γ values)) values defs).map
        (.record kind cls) := by
  rw [reread, hbody]
  dsimp only
  rw [hrec]

theorem covers_of_unaliased {defs : List FieldDef} (h : ∀ d ∈ defs, d.inputName = none) :
    FieldDef.covers defs = true := by
  refine List.all_eq_true.mpr fun d hd => List.any_eq_true.mpr ⟨d, hd, ?_⟩
  rw [FieldDef.given, h d hd]
  exact beq_self_eq_true d.name

/-- Exactly of a type, a value comes back as itself. -/
theorem reread_of_inhabits (h : Inhabits Γ T v) : reread Γ v T = some v := by
  induction h with
  | list h ih =>
    rw [reread, rereadItems_eq_some.mpr (List.forall₂_same.mpr ih)]
    rfl
  | dict hu hk h ih =>
    rw [reread, rereadEntries_eq_some.mpr (List.forall₂_same.mpr fun e he => ⟨rfl, ih e he⟩)]
    rfl
  | @record kind cls defs values hb hn ha hl h ih =>
    obtain ⟨body, hbody, hrec⟩ := Option.bind_eq_some_iff.mp hb
    have hlen : values.length = defs.length := by simpa using congrArg List.length hl
    have hvalues : (values.zip defs).map (·.1) = values := List.map_fst_zip (by omega)
    have hfields : ∀ members, rereadFields Γ members values defs = some values := by
      intro members
      rw [rereadFields_eq_some]
      conv => rhs; rw [← hvalues]
      rw [List.forall₂_map_right_iff, List.forall₂_same]
      intro p hp
      rw [refill, ha p.2 (List.of_mem_zip hp).2]
      exact ⟨rfl, ih p hp⟩
    rw [reread_record hbody hrec, covers_of_unaliased ha, hfields]
    simp
  | @namedTuple cls defs values hb hl h ih =>
    rw [reread, hb]
    rfl
  | member => rfl
  | plain | tupleOf | tuple | set | frozenSet | absent | present | native | annotated | descriptor =>
    exact reread_eq_self rfl

/-- The data has a text, nests as deep as the value, and is read as what the value comes back as, or
not at all. -/
structure Rereads (Γ : Catalog) (T : TypeExpr) (v : Value) (j : Json) : Prop where
  legible : Json.Legible j
  nesting : j.nesting = v.nesting
  gives (w : Value) : Gives (Validation.answer Γ .data (.ofJson j) T) w ↔ reread Γ v T = some w

theorem Reads.rereads (hr : Reads Γ T v j) (h : Inhabits Γ T v) : Rereads Γ T v j := by
  refine ⟨hr.legible, hr.nesting, fun w => ?_⟩
  rw [reread_of_inhabits h, Option.some.injEq]
  exact ⟨fun hw => hr.gives.unique hw, fun hvw => hvw ▸ hr.gives⟩

theorem Rereads.list {spelling : Spelling} {items : List Value} {js : List Json}
    (h : List.Forall₂ (Rereads Γ T) items js) :
    Rereads Γ (.list spelling T) (.sequence .list items) (.array js) where
  legible := .array (forall_mem_right h fun _ _ hr => hr.legible)
  nesting := by
    rw [Json.nesting, Value.nesting, nestingItems_eq (h.imp fun _ _ hr => hr.nesting)]
  gives w := by
    change Gives (Validation.checkItems Γ .data .list (arraySubject Γ js) T) w ↔ _
    rw [Validation.checkItems_gives_iff rfl, reread, Option.map_eq_some_iff, arraySubject_items]
    refine exists_congr fun ws => ?_
    rw [rereadItems_eq_some, List.forall₂_map_left_iff, and_comm,
      forall₂_congr_left h fun _ _ hr => hr.gives]
    exact and_congr_right fun _ => eq_comm

theorem Rereads.dict {spelling : Spelling} {K : Primitive} {entries : List (Value × Value)}
    {js : List (String × Json)} (hu : Json.Unrepeated entries) (hk : ∀ e ∈ entries, Key K e.1)
    (h : List.Forall₂ (Named (Rereads Γ T)) entries js) :
    Rereads Γ (.dict spelling (.primitive K) T) (.dict entries) (.object js) where
  legible := .object (forall_mem_right h fun _ _ hr => hr.2.legible)
  nesting := by
    rw [Json.nesting, Value.nesting, nestingEntries_eq]
    refine nestingMembers_eq ?_
    rw [List.forall₂_map_left_iff]
    exact h.imp fun _ _ hr => hr.2.nesting
  gives w := by
    have hpairs {pairs : List (Value × Value)} :
        List.Forall₂ (fun (e : Value × Validation.Answer × Validation.Answer) (p : Value × Value) =>
          Gives (e.2.1 (.primitive K)) p.1 ∧ Gives (e.2.2 T) p.2) (objectSubject Γ js).entries pairs ↔
        rereadEntries Γ entries T = some pairs := by
      rw [rereadEntries_eq_some, objectSubject_entries, List.forall₂_map_left_iff]
      refine forall₂_congr_left ((List.forall₂_and_left _ _).mpr ⟨hk, h⟩) ?_
      rintro e j ⟨hkey, hname, hr⟩ p
      have hgives := gives_key (Γ := Γ) hkey
      rw [hname] at hgives
      exact and_congr ⟨hgives.unique, fun heq => heq ▸ hgives⟩ (hr.gives p.2)
    have hsettled {pairs : List (Value × Value)} (hp : rereadEntries Γ entries T = some pairs) :
        Json.Unrepeated pairs := by
      have hkeys : entries.map (·.1) = pairs.map (·.1) :=
        map_eq_of_forall₂ (rereadEntries_eq_some.mp hp) fun _ _ he => he.1
      have hdistinct : (entries.map (·.1)).Pairwise fun a b => (a == b) = false :=
        List.pairwise_map.mpr hu
      rw [hkeys] at hdistinct
      exact List.pairwise_map.mp hdistinct
    change Gives (Validation.checkDict (objectSubject Γ js) (.primitive K) T) w ↔ _
    rw [reread, Option.map_eq_some_iff]
    constructor
    · intro hw
      obtain ⟨pairs, rfl, hall⟩ := Validation.of_checkDict_gives hw
      have hp := hpairs.mp hall
      exact ⟨pairs, hp, by rw [Json.settleEntries_eq_self (hsettled hp)]⟩
    · rintro ⟨pairs, hp, rfl⟩
      exact Validation.checkDict_gives rfl (hpairs.mpr hp) (hsettled hp)

/-- A value of a type as it is built by validation: exactly of it but for fields of models, which
may expect other names in input. -/
inductive Typed (Γ : Catalog) : TypeExpr → Value → Prop
  | exact {T : TypeExpr} {v : Value} (h : Inhabits Γ T v) : Typed Γ T v
  | list {spelling : Spelling} {T : TypeExpr} {items : List Value} (h : ∀ v ∈ items, Typed Γ T v) :
      Typed Γ (.list spelling T) (.sequence .list items)
  | dict {spelling : Spelling} {K : Primitive} {T : TypeExpr} {entries : List (Value × Value)}
      (hu : Json.Unrepeated entries) (hk : ∀ e ∈ entries, Key K e.1)
      (h : ∀ e ∈ entries, Typed Γ T e.2) : Typed Γ (.dict spelling (.primitive K) T) (.dict entries)
  | record {kind : RecordKind} {cls : String} {body : ClassBody} {defs : List FieldDef}
      {values : List (String × Value)} (hbody : Γ.body? cls = some body)
      (hrec : body.record? = some (kind, defs)) (hn : (defs.map (·.name)).Nodup)
      (ha : kind = .data → ∀ d ∈ defs, d.inputName = none)
      (hl : values.map (·.1) = defs.map (·.name))
      (h : ∀ p ∈ values.zip defs, Typed Γ p.2.type p.1.2) :
      Typed Γ (.named cls) (.record kind cls values)

/-- The members of an object are the fields of a record under their own names, as they are written
where their types are declared if the record is a model. -/
structure Members (Γ : Catalog) (kind : RecordKind) (p : (String × Value) × FieldDef)
    (j : String × Json) : Prop where
  name : p.1.1 = j.1
  model : kind = .model → (dumper Γ p.1.2).declared p.2.type = .ok j.2
  rereads : Rereads Γ p.2.type p.1.2 j.2

section
variable {kind : RecordKind} {cls : String} {body : ClassBody} {defs : List FieldDef}
  {values : List (String × Value)} {js : List (String × Json)}

theorem entry?_eq_none {name : String} (h : ∀ m ∈ js, m.1 ≠ name) :
    Validation.entry? (objectSubject Γ js).entries name = none := by
  rw [Validation.entry?, objectSubject_entries, Option.map_eq_none_iff, List.find?_eq_none]
  intro e he
  obtain ⟨m, hm, rfl⟩ := List.mem_map.mp (List.mem_reverse.mp he)
  simpa [Value.text?] using h m hm

theorem extraFaults_eq_nil_iff : Validation.extraFaults defs (objectSubject Γ js).entries = [] ↔
    ∀ m ∈ js, ∃ f ∈ defs, f.given = m.1 := by
  refine ⟨fun h => ?_, extraFaults_eq_nil⟩
  rw [objectSubject_entries] at h
  induction js with
  | nil => exact fun m hm => absurd hm List.not_mem_nil
  | cons m rest ih =>
    rw [List.map_cons, Validation.extraFaults] at h
    simp only [Value.text?] at h
    split at h
    · rename_i hany
      refine List.forall_mem_cons.mpr ⟨?_, ih h⟩
      simpa using hany
    · cases h

theorem covers_iff (hnames : js.map (·.1) = defs.map (·.name)) : FieldDef.covers defs = true ↔
    ∀ m ∈ js, ∃ f ∈ defs, f.given = m.1 := by
  have hall : FieldDef.covers defs = true ↔ ∀ n ∈ defs.map (·.name), ∃ f ∈ defs, f.given = n := by
    simp [FieldDef.covers]
  rw [hall, ← hnames, List.forall_mem_map]

theorem checkNamed_gives_iff {w : Value} (hbody : Γ.body? cls = some body)
    (hrec : body.record? = some (kind, defs)) (hnames : js.map (·.1) = defs.map (·.name)) :
    Gives (Validation.checkNamed Γ .data (objectSubject Γ js) cls) w ↔
      ¬ (body.closed && !FieldDef.covers defs) = true ∧ ∃ ws, w = .record kind cls ws ∧
        List.Forall₂ (fun (f : FieldDef) (x : String × Value) =>
          f.name = x.1 ∧ Validation.Fills (objectSubject Γ js).entries f x.2) defs ws := by
  unfold Validation.checkNamed
  rw [hbody]
  cases body with
  | model fields extras =>
    cases hrec
    change Gives (Validation.checkRecord .model cls .lax extras defs _) w ↔ _
    rw [Validation.checkRecord_gives_iff]
    refine and_congr_left' ?_
    cases extras with
    | ignored => simp [Validation.noExtras, ClassBody.closed]
    | forbidden =>
      have hno : Validation.noExtras .forbidden defs (objectSubject Γ js).entries = .ok () ↔
          Validation.extraFaults defs (objectSubject Γ js).entries = [] := by
        unfold Validation.noExtras
        dsimp only
        split <;> simp_all
      rw [hno, extraFaults_eq_nil_iff, ← covers_iff hnames]
      simp [ClassBody.closed]
  | data fields =>
    cases hrec
    change Gives (Validation.checkRecord .data cls .strict .ignored defs _) w ↔ _
    rw [Validation.checkRecord_gives_iff]
    simp [Validation.noExtras, ClassBody.closed]
  | namedTuple => cases hrec
  | enumeration => cases hrec
  | plain => cases hrec

theorem gives_iff_validate {x w : Value} :
    Gives (Validation.answer Γ .data x T) w ↔
      (Validation.validate Γ .data x T).toOption = some w := by
  unfold Gives Validation.validate
  cases Validation.answer Γ .data x T with
  | error e => exact iff_of_false (by rintro ⟨st, ⟨⟩⟩) (by rintro ⟨⟩)
  | ok a =>
    refine ⟨?_, fun h => ⟨a.standing, ?_⟩⟩
    · rintro ⟨st, ⟨⟩⟩
      rfl
    · cases h
      rfl

/-- The fields of a model are written as the members of its object. -/
theorem declaredFields_eq_members (hl : values.map (·.1) = defs.map (·.name))
    (hd : (defs.map (·.name)).Nodup)
    (h : List.Forall₂ (Members Γ .model) (values.zip defs) js) :
    declaredFields defs (fieldDumpers Γ values) = js.map fun m => (m.1, .ok m.2) := by
  rw [declaredFields_eq hd hl]
  refine map_eq_of_forall₂ h fun q m hmem => ?_
  rw [← hmem.model rfl, hmem.name]

theorem find?_written (js : List (String × Json)) (name : String) :
    (js.map fun m => (m.1, (.ok m.2 : Encoded))).find? (·.1 == name) =
      (js.find? (·.1 == name)).map fun m => (m.1, .ok m.2) := by
  rw [List.find?_map]
  rfl

/-- A field that expects another name takes what is found under that name, or its default. -/
theorem fills_secondhand {d : FieldDef} {name : String} (hn : (js.map (·.1)).Nodup)
    (hname : d.inputName = some name) (x : Value) :
    Validation.Fills (objectSubject Γ js).entries d x ↔
      secondhand Γ (js.map fun m => (m.1, .ok m.2)) d name = some x := by
  unfold Validation.Fills FieldDef.given
  rw [hname, secondhand, find?_written]
  dsimp only [Option.getD]
  cases hfind : js.find? (·.1 == name) with
  | some m =>
    have hm : m.1 = name := by simpa using List.find?_some hfind
    have hentry := entry?_of_mem (Γ := Γ) hn (List.mem_of_find?_eq_some hfind)
    rw [hm] at hentry
    rw [hentry]
    exact gives_iff_validate
  | none =>
    rw [entry?_eq_none (by simpa using hfind)]
    exact Iff.rfl

/-- A field takes the value that it comes back as, and no other. -/
theorem fills_iff (hn : (js.map (·.1)).Nodup) (hl : values.map (·.1) = defs.map (·.name))
    (hd : (defs.map (·.name)).Nodup) (ha : kind = .data → ∀ d ∈ defs, d.inputName = none)
    (hkind : kind ≠ .tuple)
    (h : List.Forall₂ (Members Γ kind) (values.zip defs) js) {p : (String × Value) × FieldDef}
    (hp : p ∈ values.zip defs) (x : Value) :
    Validation.Fills (objectSubject Γ js).entries p.2 x ↔
      refill Γ (declaredFields defs (fieldDumpers Γ values)) p = some x := by
  rw [refill]
  cases hname : p.2.inputName with
  | none =>
    obtain ⟨j, hj, hmem⟩ := exists_mem_right h p hp
    have hentry := entry?_of_mem (Γ := Γ) hn hj
    rw [← hmem.name, ← name_of_mem_zip hl hp] at hentry
    rw [Validation.Fills, FieldDef.given, hname]
    dsimp only [Option.getD]
    rw [hentry]
    exact hmem.rereads.gives x
  | some name =>
    obtain rfl : kind = .model := by
      cases kind with
      | model => rfl
      | tuple => exact absurd rfl hkind
      | data =>
        rw [ha rfl p.2 (List.of_mem_zip hp).2] at hname
        cases hname
    rw [fills_secondhand hn hname, declaredFields_eq_members hl hd h]

theorem Rereads.record (hbody : Γ.body? cls = some body)
    (hrec : body.record? = some (kind, defs)) (hd : (defs.map (·.name)).Nodup)
    (ha : kind = .data → ∀ d ∈ defs, d.inputName = none)
    (hl : values.map (·.1) = defs.map (·.name))
    (h : List.Forall₂ (Members Γ kind) (values.zip defs) js) :
    Rereads Γ (.named cls) (.record kind cls values) (.object js) := by
  have hlen : values.length = defs.length := by simpa using congrArg List.length hl
  have hvalues : (values.zip defs).map (·.1) = values := List.map_fst_zip (by omega)
  have hdefs : (values.zip defs).map (·.2) = defs := List.map_snd_zip (by omega)
  have hnames : js.map (·.1) = defs.map (·.name) := by
    rw [← hl, ← map_eq_of_forall₂ h fun _ _ hm => hm.name, ← hvalues, List.map_map, hvalues]
    rfl
  have hkind : kind ≠ .tuple := by
    rintro rfl
    cases body <;> cases hrec
  refine ⟨.object (forall_mem_right h fun _ _ hm => hm.rereads.legible), ?_, fun w => ?_⟩
  · rw [Json.nesting, Value.nesting, nestingFields_eq, ← hvalues, List.map_map]
    refine nestingMembers_eq ?_
    rw [List.forall₂_map_left_iff]
    exact h.imp fun _ _ hm => hm.rereads.nesting
  · change Gives (Validation.checkNamed Γ .data (objectSubject Γ js) cls) w ↔ _
    have hself : List.Forall₂ (fun p q => p = q ∧ q ∈ values.zip defs) (values.zip defs)
        (values.zip defs) := List.forall₂_same.mpr fun p hp => ⟨rfl, hp⟩
    have hfields (ws : List (String × Value)) :
        List.Forall₂ (fun (f : FieldDef) (x : String × Value) =>
          f.name = x.1 ∧ Validation.Fills (objectSubject Γ js).entries f x.2) defs ws ↔
        rereadFields Γ (declaredFields defs (fieldDumpers Γ values)) values defs = some ws := by
      rw [rereadFields_eq_some]
      conv_lhs => rw [← hdefs]
      rw [List.forall₂_map_left_iff]
      refine forall₂_congr_left hself ?_
      rintro p _ ⟨rfl, hp⟩ x
      rw [name_of_mem_zip hl hp, fills_iff (hnames ▸ hd) hl hd ha hkind h hp]
    rw [checkNamed_gives_iff hbody hrec hnames, reread_record hbody hrec]
    simp only [hfields]
    by_cases hclosed : (body.closed && !FieldDef.covers defs) = true
    · simp [hclosed]
    · rw [if_neg hclosed, Option.map_eq_some_iff]
      rw [and_iff_right hclosed]
      exact exists_congr fun ws => ⟨fun h => ⟨h.2, h.1.symm⟩, fun h => ⟨h.2.symm, h.1⟩⟩

end

theorem Typed.fitting (h : Typed Γ T v) : Fitting Γ T v := by
  induction h with
  | exact h => exact h.fitting
  | list h ih => exact .list ih
  | dict hu hk h ih => exact .dict hk ih
  | record hbody hrec hn ha hl h ih =>
    exact .record hl ih (Option.bind_eq_some_iff.mpr ⟨_, hbody, hrec⟩) hn

theorem declarative_inhabits (hΓ : Γ.Declarative (Typed Γ)) : Γ.Declarative (Inhabits Γ) :=
  ⟨fun h => hΓ.serialize (.exact h), hΓ.raises⟩

/-- However a value of a type is written, it is read as what it comes back as. -/
theorem Typed.carried (hΓ : Γ.Declarative (Typed Γ)) (h : Typed Γ T v) :
    Carried Γ (Rereads Γ) T v := by
  induction h with
  | exact h => exact (h.carried (declarative_inhabits hΓ)).imp fun _ hr => hr.rereads h
  | list h ih => exact .list (fun _ => .list) ih
  | dict hu hk h ih => exact .dict hu hk (fun _ => .dict hu hk) ih
  | @record kind cls body defs values hbody hrec hn ha hl h ih =>
    have hb : (Γ.body? cls).bind ClassBody.record? = some (kind, defs) := by
      rw [hbody]
      exact hrec
    refine .record hn hl hb ?_ (fun js hjs => ?_) (fun p hp => (h p hp).fitting.declared) ih
    · rintro rfl
      exact hΓ.serialize (.record hbody hrec hn ha hl h)
    · exact .record hbody hrec hn ha hl (hjs.imp fun _ _ hm => ⟨hm.1, hm.2.1, hm.2.2⟩)

/-- What a text is decoded to is what its data is read as, if it does not nest too deep. -/
theorem decodeAs_eq_ok_iff (hΓ : Γ.raised? .data T (.ofJson j) = none) (hl : Json.Legible j)
    {w : Value} :
    decodeAs Γ T (String.ofList (j.chars Json.compact)) = .ok w ↔
      j.nesting ≤ depthLimit ∧ Gives (Validation.answer Γ .data (.ofJson j) T) w := by
  rw [decodeAs, Json.read_chars_some hl, gives_iff_validate]
  by_cases hn : j.nesting ≤ depthLimit
  · rw [if_pos hn, and_iff_right hn]
    dsimp only
    rw [Validation.examine, hΓ]
    cases Validation.validate Γ .data (.ofJson j) T with
    | error fs => exact iff_of_false (by rintro ⟨⟩) (by rintro ⟨⟩)
    | ok x => simp [Except.toOption, Except.mapError]
  · rw [if_neg hn]
    exact iff_of_false (by rintro ⟨⟩) fun h => hn h.1

theorem result_decodeText {d : Descriptor} {text : String} {w : Value} :
    (decodeText Γ d text).result = .ok w ↔ decodeAs Γ d.type text = .ok w := by
  unfold decodeText
  cases decodeAs Γ d.type text with
  | ok x => exact ⟨fun h => congrArg _ (Except.ok.inj h), fun h => congrArg _ (Except.ok.inj h)⟩
  | error e => cases e <;> exact iff_of_false (by rintro ⟨⟩) (by rintro ⟨⟩)

theorem exists_text_of_typed (hΓ : Γ.Declarative (Typed Γ)) (hT : T.checkable Γ = true)
    (hr : T.rigid = true) (hv : Typed Γ T v) (hnone : v ≠ .none) (s : Descriptors) :
    ∃ text, encode Γ v = .ok (some text) ∧
      ∀ w, (decode Γ s (some text) (.type T)).1.result = .ok w ↔
        v.nesting ≤ depthLimit ∧ reread Γ v T = some w := by
  obtain ⟨j, hj, hread⟩ := (hv.carried hΓ).alone
  obtain ⟨hraw, hpresent⟩ := encode_of_jsonable hnone hj hread.legible
  have hany : T ≠ .any := by
    rintro rfl
    cases hv with
    | exact h => cases h
  obtain ⟨d, s', hd, hequal⟩ := Descriptors.exists_of? hT hany s
  have htype : d.type = T := by
    rcases hequal with heq | heq
    · exact heq
    · exact TypeExpr.eq_of_equals d.type T heq hr
  refine ⟨_, hraw, fun w => ?_⟩
  rw [decode, hpresent, hd]
  change (decodeText Γ d _).result = .ok w ↔ _
  rw [result_decodeText, htype, decodeAs_eq_ok_iff (hΓ.raised?_eq_none ..) hread.legible,
    hread.nesting, hread.gives]

/-- A field that expects another name and has a default. -/
def rankField : FieldDef where
  name := "rank"
  type := .primitive .int
  default := some (.int 0)
  inputName := some "order"

def rankClasses : Classes where
  classes := [{ name := "Rank", body := .model [rankField] .ignored }]

def ranks : Catalog where
  toClasses := rankClasses
  serialize cls fields := dump rankClasses (.record .model cls fields)

theorem declarative_ranks {typed : TypeExpr → Value → Prop} : ranks.Declarative typed :=
  ⟨fun _ => rfl, fun _ _ _ => rfl⟩

def rank (n : Int) : Value := .record .model "Rank" [("rank", .int n)]

theorem typed_rank {n : Int} (h : Number.writable n = true) :
    Typed ranks (.named "Rank") (rank n) :=
  .record rfl rfl (by decide) (by rintro ⟨⟩) rfl
    (List.forall_mem_singleton.mpr (.exact (.plain (.int h))))

/-- An order as a model that expects another name for its number, and nothing besides its fields. -/
def aliased : Value := .record .model "Aliased" [("order_id", .int 7), ("flag", .none)]

end Payload
end WorkflowClient
