import WorkflowClient.Proofs.Payload.Fits

/-! Both encoders write values so that they are read back. -/
namespace WorkflowClient

/-- The classes have no code of their own that matters to values of their types: models dump
themselves by the types of their fields, and no check raises anything but faults. -/
structure Catalog.Declarative (Γ : Catalog) (typed : TypeExpr → Value → Prop) : Prop where
  serialize {cls : String} {fields : List (String × Value)} :
    typed (.named cls) (.record .model cls fields) →
      Γ.serialize cls fields = Payload.dump Γ (.record .model cls fields)
  raises (m : Validation.Mode) (T : TypeExpr) (v : Value) : Γ.raises m T v = none

theorem Catalog.Declarative.raised?_eq_none {Γ : Catalog} {typed : TypeExpr → Value → Prop}
    (h : Γ.Declarative typed) (m : Validation.Mode) (T : TypeExpr) (v : Value) :
    Γ.raised? m T v = none := by
  rw [raised?, h.raises, ite_self]

namespace Payload

/-- Written by itself and as a part of a model, the value has data that stands for it. -/
structure Carried (Γ : Catalog) (R : TypeExpr → Value → Json → Prop) (T : TypeExpr) (v : Value) :
    Prop where
  alone : ∃ j, jsonable Γ v = .ok (.ofJson j) ∧ R T v j
  inferred : ∃ j, (dumper Γ v).inferred = .ok j ∧ R T v j

variable {Γ : Catalog} {R : TypeExpr → Value → Json → Prop} {T : TypeExpr} {v : Value} {j : Json}

theorem Carried.imp {Q : TypeExpr → Value → Json → Prop} {U : TypeExpr} (h : Carried Γ R T v)
    (hq : ∀ j, R T v j → Q U v j) : Carried Γ Q U v :=
  ⟨h.alone.imp fun j hj => ⟨hj.1, hq j hj.2⟩, h.inferred.imp fun j hj => ⟨hj.1, hq j hj.2⟩⟩

theorem sequence_ok {α β ε : Type} {f : α → Except ε β} {R : α → β → Prop} {as : List α}
    (h : ∀ a ∈ as, ∃ b, f a = .ok b ∧ R a b) :
    ∃ bs, sequence (as.map f) = .ok bs ∧ List.Forall₂ R as bs := by
  induction as with
  | nil => exact ⟨[], rfl, .nil⟩
  | cons a rest ih =>
    obtain ⟨b, hb, hr⟩ := h a (by simp)
    obtain ⟨bs, hbs, hrest⟩ := ih fun x hx => h x (List.mem_cons_of_mem _ hx)
    refine ⟨b :: bs, ?_, .cons hr hrest⟩
    rw [List.map_cons, hb, sequence, hbs]

theorem sequence_cons_ok {α ε : Type} (a : α) (rest : List (Except ε α)) :
    sequence (.ok a :: rest) = (sequence rest).map (a :: ·) := by
  rw [sequence]
  cases sequence rest <;> rfl

theorem jsonables_eq (items : List Value) :
    jsonables Γ items = sequence (items.map (jsonable Γ)) := by
  induction items with
  | nil => rfl
  | cons v rest ih =>
    rw [jsonables, ih, List.map_cons]
    cases jsonable Γ v with
    | error e => rfl
    | ok w =>
      rw [sequence_cons_ok]
      cases sequence (rest.map (jsonable Γ)) <;> rfl

theorem jsonableFields_eq (fields : List (String × Value)) :
    jsonableFields Γ fields = fields.map fun f => (f.1, jsonable Γ f.2) := by
  induction fields with
  | nil => rfl
  | cons f rest ih =>
    obtain ⟨n, v⟩ := f
    rw [jsonableFields, ih, List.map_cons]

/-- What is handed out for a field, under its name. -/
def fieldData (Γ : Catalog) (f : String × Value) : Except EncodeFault (String × Value) :=
  (jsonable Γ f.2).map fun w => (f.1, w)

theorem lookup_of_nodup {α : Type} {fields : List (String × α)} (hn : (fields.map (·.1)).Nodup)
    {f : String × α} (hf : f ∈ fields) : fields.lookup f.1 = some f.2 := by
  induction fields with
  | nil => cases hf
  | cons g rest ih =>
    rw [List.map_cons, List.nodup_cons] at hn
    rcases List.mem_cons.mp hf with rfl | hrest
    · rw [List.lookup_cons, beq_self_eq_true]
    · have hne : (f.1 == g.1) = false := by
        rw [beq_eq_false_iff_ne]
        rintro heq
        exact hn.1 (heq ▸ List.mem_map_of_mem hrest)
      rw [List.lookup_cons, hne]
      exact ih hn.2 hrest

/-- Where the class names the fields that the record has, each is handed out in turn. -/
theorem pickFields_own {cls : String} {fields : List (String × Value)}
    (hn : (fields.map (·.1)).Nodup) :
    (fields.map (·.1)).map (pickField cls (jsonableFields Γ fields)) =
      fields.map (fieldData Γ) := by
  rw [List.map_map]
  refine List.map_congr_left fun f hf => ?_
  have hnames : ((jsonableFields Γ fields).map (·.1)).Nodup := by
    rwa [jsonableFields_eq, List.map_map]
  have hmem : (f.1, jsonable Γ f.2) ∈ jsonableFields Γ fields := by
    rw [jsonableFields_eq]
    exact List.mem_map_of_mem hf
  rw [Function.comp_apply, pickField, lookup_of_nodup hnames hmem]
  rfl

/-- What is handed out for an entry, under the name of its key. -/
def entryData (Γ : Catalog) (e : Value × Value) : Except EncodeFault (String × Value) :=
  match nameOf e.1 with
  | .error e => .error e
  | .ok name => fieldData Γ (name, e.2)

theorem jsonableEntries_eq (entries : List (Value × Value)) :
    jsonableEntries Γ entries = sequence (entries.map (entryData Γ)) := by
  induction entries with
  | nil => rfl
  | cons e rest ih =>
    obtain ⟨k, v⟩ := e
    rw [jsonableEntries, ih, List.map_cons, entryData]
    dsimp only
    cases nameOf k with
    | error e => rfl
    | ok name =>
      dsimp only
      rw [fieldData]
      cases jsonable Γ v with
      | error e => rfl
      | ok w =>
        rw [Except.map, sequence_cons_ok]
        cases sequence (rest.map (entryData Γ)) <;> rfl

mutual

/-- Different data are different values. -/
theorem ofJson_injective : ∀ {i j : Json}, Value.ofJson i = .ofJson j → i = j
  | .null, j, h => by cases j <;> first | rfl | cases h
  | .bool _, j, h => by cases j <;> first | (cases h; rfl) | cases h
  | .int _, j, h => by cases j <;> first | (cases h; rfl) | cases h
  | .float _, j, h => by cases j <;> first | (cases h; rfl) | cases h
  | .str _, j, h => by cases j <;> first | (cases h; rfl) | cases h
  | .array items, j, h => by
    cases j with
    | array others =>
      simp only [Value.ofJson, Value.sequence.injEq, true_and] at h
      rw [ofJsonItems_injective h]
    | _ => cases h
  | .object members, j, h => by
    cases j with
    | object others =>
      simp only [Value.ofJson, Value.dict.injEq] at h
      rw [ofJsonMembers_injective h]
    | _ => cases h

theorem ofJsonItems_injective : ∀ {items others : List Json},
    Value.ofJsonItems items = Value.ofJsonItems others → items = others
  | [], [], _ => rfl
  | [], _ :: _, h => by cases h
  | _ :: _, [], h => by cases h
  | i :: items, j :: others, h => by
    simp only [Value.ofJsonItems, List.cons.injEq] at h
    rw [ofJson_injective h.1, ofJsonItems_injective h.2]

theorem ofJsonMembers_injective : ∀ {members others : List (String × Json)},
    Value.ofJsonMembers members = Value.ofJsonMembers others → members = others
  | [], [], _ => rfl
  | [], _ :: _, h => by cases h
  | _ :: _, [], h => by cases h
  | (k, i) :: members, (l, j) :: others, h => by
    simp only [Value.ofJsonMembers, List.cons.injEq, Prod.mk.injEq, Value.str.injEq] at h
    rw [h.1.1, ofJson_injective h.1.2, ofJsonMembers_injective h.2]

end

/-- Members with their data, as values. -/
def membersOf (members : List (String × Json)) : List (String × Value) :=
  members.map fun m => (m.1, .ofJson m.2)

theorem objectValue_membersOf (members : List (String × Json)) :
    objectValue (membersOf members) = .ofJson (.object members) := by
  rw [Value.ofJson, Value.ofJsonMembers_eq_map, objectValue, membersOf, List.map_map]
  rfl

theorem objectValue_injective {ms ns : List (String × Value)}
    (h : objectValue ms = objectValue ns) : ms = ns := by
  have hinj : Function.Injective fun m : String × Value => (Value.str m.1, m.2) := by
    rintro ⟨k, v⟩ ⟨l, w⟩ heq
    simpa using heq
  exact List.map_injective_iff.mpr hinj (Value.dict.inj h)

theorem settledObject_membersOf (members : List (String × Json)) :
    settledObject (membersOf members) = .ofJson (.object (Json.settleEntries members)) := by
  rw [settledObject, membersOf, Json.settleEntries_map_values]
  exact objectValue_membersOf _

/-- Where no name comes again, all members stay. -/
theorem settledObject_of_nodup {members : List (String × Json)}
    (hn : (members.map (·.1)).Nodup) :
    settledObject (membersOf members) = .ofJson (.object members) := by
  rw [settledObject_membersOf, Json.settleEntries_eq_self (Json.unrepeated_of_nodup hn)]

/-- Parts that have data are handed out as the data. -/
theorem sequence_data {α : Type} {f : α → Except EncodeFault Value} {Q : α → Json → Prop}
    {as : List α} (h : ∀ a ∈ as, ∃ j, f a = .ok (.ofJson j) ∧ Q a j) :
    ∃ js, sequence (as.map f) = .ok (js.map .ofJson) ∧ List.Forall₂ Q as js := by
  induction as with
  | nil => exact ⟨[], rfl, .nil⟩
  | cons a rest ih =>
    obtain ⟨j, hj, hq⟩ := h a List.mem_cons_self
    obtain ⟨js, hjs, hrest⟩ := ih fun b hb => h b (List.mem_cons_of_mem _ hb)
    refine ⟨j :: js, ?_, .cons hq hrest⟩
    rw [List.map_cons, hj, sequence_cons_ok, hjs]
    rfl

/-- The same under names. -/
theorem sequence_members {α : Type} {f : α → Except EncodeFault (String × Value)}
    {Q : α → String × Json → Prop} {as : List α}
    (h : ∀ a ∈ as, ∃ m : String × Json, f a = .ok (m.1, .ofJson m.2) ∧ Q a m) :
    ∃ ms, sequence (as.map f) = .ok (membersOf ms) ∧ List.Forall₂ Q as ms := by
  induction as with
  | nil => exact ⟨[], rfl, .nil⟩
  | cons a rest ih =>
    obtain ⟨m, hm, hq⟩ := h a List.mem_cons_self
    obtain ⟨ms, hms, hrest⟩ := ih fun b hb => h b (List.mem_cons_of_mem _ hb)
    refine ⟨m :: ms, ?_, .cons hq hrest⟩
    rw [List.map_cons, hm, sequence_cons_ok, hms]
    rfl

theorem carried_leaf (hj : jsonable Γ v = .ok (.ofJson j)) (hi : (dumper Γ v).inferred = .ok j)
    (h : R T v j) : Carried Γ R T v :=
  ⟨⟨j, hj, h⟩, ⟨j, hi, h⟩⟩

theorem inferred_float {x : Number.Double} (h : x.isFinite = true) :
    (dumper Γ (.float x)).inferred = .ok (.float x) := by
  change leafData (.float x) = _
  rw [leafData, if_pos h]

theorem Carried.plain {p : Primitive} (h : Plain p v) :
    Carried Γ (Reads Γ) (.primitive p) v := by
  cases h with
  | int h => exact carried_leaf rfl rfl (.int h)
  | bool b => exact carried_leaf rfl rfl (.bool b)
  | str s => exact carried_leaf rfl rfl (.str s)
  | null => exact carried_leaf rfl rfl .null_type
  | float h => exact carried_leaf rfl (inferred_float h) (.float h)
  | decimal h => exact carried_leaf rfl rfl (.decimal h)
  | uuid u => exact carried_leaf rfl rfl (.uuid u)
  | date d => exact carried_leaf rfl rfl (.date d)
  | clock h =>
    exact ⟨⟨_, rfl, .clock (Calendar.Clock.read?_chars h)⟩,
      ⟨_, rfl, .clock (Calendar.Clock.read?_zuluChars h)⟩⟩
  | instant h =>
    exact ⟨⟨_, rfl, .instant (Calendar.Instant.read?_chars h)⟩,
      ⟨_, rfl, .instant (Calendar.Instant.read?_zuluChars h)⟩⟩

/-- A sequence is carried as an array of its items, each by a type of its own. -/
theorem carried_sequence {kind : SequenceKind} {ps : List (Value × TypeExpr)} (hk : kind ≠ .queue)
    (hr : ∀ js, List.Forall₂ (fun (p : Value × TypeExpr) j => R p.2 p.1 j) ps js →
      R T (.sequence kind (ps.map (·.1))) (.array js))
    (h : ∀ p ∈ ps, Carried Γ R p.2 p.1) : Carried Γ R T (.sequence kind (ps.map (·.1))) := by
  refine ⟨?_, ?_⟩
  · obtain ⟨js, hjs, hall⟩ := sequence_data fun p hp => (h p hp).alone
    refine ⟨.array js, ?_, hr js hall⟩
    rw [jsonable, jsonables_eq, List.map_map, Function.comp_def, hjs, Value.ofJson,
      Value.ofJsonItems_eq_map]
    rfl
  · obtain ⟨js, hjs, hall⟩ := sequence_ok fun p hp => (h p hp).inferred
    have hi : (dumper Γ (.sequence kind (ps.map (·.1)))).inferred =
        arrayOf ((dumpers Γ (ps.map (·.1))).map (·.inferred)) := by
      cases kind <;> first | rfl | exact absurd rfl hk
    refine ⟨.array js, ?_, hr js hall⟩
    rw [hi, dumpers_eq_map, List.map_map, List.map_map, Function.comp_def, arrayOf]
    dsimp only [Function.comp]
    rw [hjs]
    rfl

/-- The same, with one type for all items. -/
theorem carried_items {kind : SequenceKind} {items : List Value} {U : TypeExpr}
    (hk : kind ≠ .queue)
    (hr : ∀ js, List.Forall₂ (R T) items js → R U (.sequence kind items) (.array js))
    (h : ∀ v ∈ items, Carried Γ R T v) : Carried Γ R U (.sequence kind items) := by
  have hitems : (items.map fun v => (v, T)).map (·.1) = items := by
    rw [List.map_map]
    exact List.map_id items
  rw [← hitems]
  refine carried_sequence hk (fun js hjs => ?_) (List.forall_mem_map.mpr h)
  rw [hitems]
  rw [List.forall₂_map_left_iff] at hjs
  exact hr js hjs

theorem Carried.list {spelling : Spelling} {items : List Value}
    (hr : ∀ js, List.Forall₂ (R T) items js →
      R (.list spelling T) (.sequence .list items) (.array js))
    (h : ∀ v ∈ items, Carried Γ R T v) : Carried Γ R (.list spelling T) (.sequence .list items) :=
  carried_items (by decide) hr h

theorem Carried.tupleOf {items : List Value} (h : ∀ v ∈ items, Carried Γ (Reads Γ) T v) :
    Carried Γ (Reads Γ) (.tupleOf T) (.sequence .tuple items) :=
  carried_items (by decide) (fun _ => .tupleOf) h

theorem Carried.set {items : List Value} (hs : SetItems Γ items)
    (h : ∀ v ∈ items, Carried Γ (Reads Γ) T v) :
    Carried Γ (Reads Γ) (.set T) (.sequence .set items) :=
  carried_items (by decide) (fun _ => .set hs) h

theorem Carried.frozenSet {items : List Value} (hs : SetItems Γ items)
    (h : ∀ v ∈ items, Carried Γ (Reads Γ) T v) :
    Carried Γ (Reads Γ) (.frozenSet T) (.sequence .frozenSet items) :=
  carried_items (by decide) (fun _ => .frozenSet hs) h

theorem Carried.tuple {items : List Value} {Ts : List TypeExpr} (hl : items.length = Ts.length)
    (h : ∀ p ∈ items.zip Ts, Carried Γ (Reads Γ) p.2 p.1) :
    Carried Γ (Reads Γ) (.tuple Ts) (.sequence .tuple items) := by
  have hitems : (items.zip Ts).map (·.1) = items := List.map_fst_zip (by omega)
  rw [← hitems]
  refine carried_sequence (by decide) (fun js hjs => ?_) h
  rw [hitems]
  exact .tuple hl hjs

theorem nameOf_key {K : Primitive} {k : Value} (h : Key K k) : nameOf k = .ok k.text := by
  cases h with
  | @int n h => exact if_pos h
  | _ => rfl

theorem keyText_key {K : Primitive} {k : Value} (h : Key K k) : keyText k = .ok k.text := by
  cases h with
  | @int n h =>
    rw [keyText, if_pos h, Number.toString_eq_intText]
    rfl
  | _ => rfl

/-- Members with data of each value, under the texts of the keys. -/
def Named (Q : Value → Json → Prop) (e : Value × Value) (j : String × Json) : Prop :=
  e.1.text = j.1 ∧ Q e.2 j.2

section
variable {K : Primitive} {Q : Value → Json → Prop} {entries : List (Value × Value)}

theorem unrepeated_named {js : List (String × Json)} (hu : Json.Unrepeated entries)
    (hk : ∀ e ∈ entries, Key K e.1) (h : List.Forall₂ (Named Q) entries js) :
    (js.map (·.1)).Nodup := by
  have hnames : js.map (·.1) = entries.map (·.1.text) := by
    clear hu hk
    induction h with
    | nil => rfl
    | cons he _ ih => rw [List.map_cons, List.map_cons, ih, he.1]
  exact hnames ▸ nodup_texts hu hk

theorem objectOf_ok {f : Value → Encoded} (hu : Json.Unrepeated entries)
    (hk : ∀ e ∈ entries, Key K e.1) (h : ∀ e ∈ entries, ∃ j, f e.2 = .ok j ∧ Q e.2 j) :
    ∃ js, objectOf (entries.map fun e => (keyText e.1, f e.2)) = .ok (.object js) ∧
      List.Forall₂ (Named Q) entries js := by
  have hall : ∀ e ∈ entries, ∃ j, (do
      let k ← keyText e.1
      let j ← f e.2
      pure (k, j)) = .ok j ∧ Named Q e j := by
    intro e he
    obtain ⟨j, hj, hq⟩ := h e he
    exact ⟨(e.1.text, j), by rw [keyText_key (hk e he), hj]; rfl, rfl, hq⟩
  obtain ⟨js, hjs, hq⟩ := sequence_ok hall
  refine ⟨js, ?_, hq⟩
  rw [objectOf, List.map_map, Function.comp_def, hjs, Except.map,
    Json.settleEntries_eq_self (Json.unrepeated_of_nodup (unrepeated_named hu hk hq))]

/-- A dict is carried as an object of its entries, under the texts of the keys. -/
theorem Carried.dict {spelling : Spelling} (hu : Json.Unrepeated entries)
    (hk : ∀ e ∈ entries, Key K e.1)
    (hr : ∀ js, List.Forall₂ (Named (R T)) entries js →
      R (.dict spelling (.primitive K) T) (.dict entries) (.object js))
    (h : ∀ e ∈ entries, Carried Γ R T e.2) :
    Carried Γ R (.dict spelling (.primitive K) T) (.dict entries) := by
  refine ⟨?_, ?_⟩
  · have hall : ∀ e ∈ entries, ∃ m : String × Json,
        entryData Γ e = .ok (m.1, .ofJson m.2) ∧ Named (R T) e m := by
      intro e he
      obtain ⟨j, hj, hq⟩ := (h e he).alone
      refine ⟨(e.1.text, j), ?_, rfl, hq⟩
      rw [entryData, nameOf_key (hk e he)]
      dsimp only
      rw [fieldData, hj]
      rfl
    obtain ⟨ms, hms, hq⟩ := sequence_members hall
    refine ⟨.object ms, ?_, hr ms hq⟩
    rw [jsonable, jsonableEntries_eq, hms, Except.map,
      settledObject_of_nodup (unrepeated_named hu hk hq)]
  · obtain ⟨js, hjs, hq⟩ := objectOf_ok (f := fun v => (dumper Γ v).inferred)
      (Q := R T) hu hk fun e he => (h e he).inferred
    refine ⟨.object js, ?_, hr js hq⟩
    change objectOf ((entryDumpers Γ entries).map fun e => (keyText e.1.value, e.2.inferred)) = _
    rw [entryDumpers_eq_map, List.map_map, ← hjs]
    refine congrArg objectOf (List.map_congr_left fun e _ => ?_)
    rw [Function.comp_apply, value_dumper]

end

theorem Carried.member {mixin : Mixin} {cls name : String} {members : List (String × Value)}
    {value : Value} (hb : Γ.body? cls = some (.enumeration mixin members))
    (hd : Distinct mixin members) (hm : (name, value) ∈ members) :
    Carried Γ (Reads Γ) (.named cls) (.member mixin cls name value) := by
  obtain ⟨j, hj, hi, hr⟩ := Reads.member hb hd hm
  exact carried_leaf hj hi hr

/-- Fields that are declared are written by their declared types. -/
theorem declaredFields_eq {defs : List FieldDef} {values : List (String × Value)}
    (hn : (defs.map (·.name)).Nodup) (hl : values.map (·.1) = defs.map (·.name)) :
    declaredFields defs (fieldDumpers Γ values) =
      (values.zip defs).map fun p => (p.1.1, (dumper Γ p.1.2).declared p.2.type) := by
  have hlen : values.length = defs.length := by simpa using congrArg List.length hl
  have hvalues : (values.zip defs).map (·.1) = values := List.map_fst_zip (by omega)
  rw [declaredFields, fieldDumpers_eq_map, List.filterMap_map]
  conv_lhs => rw [← hvalues, List.filterMap_map]
  rw [← List.filterMap_eq_map]
  refine List.filterMap_congr fun p hp => ?_
  have htype := typeOf?_of_mem hn (List.of_mem_zip hp).2
  rw [name_of_mem_zip hl hp] at htype
  simp [htype]

theorem recordOf_ok {ps : List ((String × Value) × FieldDef)}
    {f : (String × Value) × FieldDef → Encoded} {Q : (String × Value) × FieldDef → Json → Prop}
    (h : ∀ p ∈ ps, ∃ j, f p = .ok j ∧ Q p j) :
    ∃ js, recordOf (ps.map fun p => (p.1.1, f p)) = .ok (.object js) ∧
      List.Forall₂ (fun (p : (String × Value) × FieldDef) j => p.1.1 = j.1 ∧ Q p j.2) ps js := by
  have hall : ∀ p ∈ ps, ∃ j, (f p).map (fun j => (p.1.1, j)) = .ok j ∧ p.1.1 = j.1 ∧
      Q p j.2 := by
    intro p hp
    obtain ⟨j, hj, hq⟩ := h p hp
    exact ⟨(p.1.1, j), by rw [hj]; rfl, rfl, hq⟩
  obtain ⟨js, hjs, hq⟩ := sequence_ok hall
  refine ⟨js, ?_, hq⟩
  rw [recordOf, List.map_map, Function.comp_def, hjs]
  rfl

section
variable {kind : RecordKind} {cls : String} {defs : List FieldDef} {values : List (String × Value)}
  (hn : (defs.map (·.name)).Nodup) (hl : values.map (·.1) = defs.map (·.name))
include hn hl

/-- It does not matter whether a record dumps itself by the types that it declares, if these write
its fields as what they are. -/
theorem inferred_record (hb : (Γ.body? cls).bind ClassBody.record? = some (kind, defs))
    (hd : ∀ p ∈ values.zip defs,
      (dumper Γ p.1.2).declared p.2.type = (dumper Γ p.1.2).inferred) :
    (dumper Γ (.record kind cls values)).inferred =
      recordOf ((values.zip defs).map fun p => (p.1.1, (dumper Γ p.1.2).inferred)) := by
  have hlen : values.length = defs.length := by simpa using congrArg List.length hl
  have hvalues : (values.zip defs).map (·.1) = values := List.map_fst_zip (by omega)
  have hdeclared : declaredFields defs (fieldDumpers Γ values) =
      (values.zip defs).map fun p => (p.1.1, (dumper Γ p.1.2).inferred) := by
    rw [declaredFields_eq hn hl]
    exact List.map_congr_left fun p hp => by rw [hd p hp]
  have hplain : (fieldDumpers Γ values).map (fun f => (f.1, f.2.inferred)) =
      (values.zip defs).map fun p => (p.1.1, (dumper Γ p.1.2).inferred) := by
    rw [fieldDumpers_eq_map, List.map_map]
    conv_lhs => rw [← hvalues, List.map_map]
    rfl
  obtain ⟨body, hbody, hrec⟩ := Option.bind_eq_some_iff.mp hb
  change inferredRecord Γ kind cls (fieldDumpers Γ values) = _
  cases body <;> cases hrec
  · simp [inferredRecord, ownFields?, hbody, hdeclared]
  · cases hown : Γ.dumpsItself cls <;>
      simp [inferredRecord, ownFields?, hbody, hown, hdeclared, hplain]

/-- A model is carried as its fields by their declared types, if it dumps itself so; a data record
as its fields, both by themselves and as parts. -/
theorem Carried.record (hb : (Γ.body? cls).bind ClassBody.record? = some (kind, defs))
    (hself : kind = .model →
      Γ.serialize cls values = dump Γ (.record .model cls values))
    (hr : ∀ js, List.Forall₂ (fun (p : (String × Value) × FieldDef) m => p.1.1 = m.1 ∧
        (kind = .model → (dumper Γ p.1.2).declared p.2.type = .ok m.2) ∧ R p.2.type p.1.2 m.2)
      (values.zip defs) js → R (.named cls) (.record kind cls values) (.object js))
    (hd : ∀ p ∈ values.zip defs,
      (dumper Γ p.1.2).declared p.2.type = (dumper Γ p.1.2).inferred)
    (h : ∀ p ∈ values.zip defs, Carried Γ R p.2.type p.1.2) :
    Carried Γ R (.named cls) (.record kind cls values) := by
  have hlen : values.length = defs.length := by simpa using congrArg List.length hl
  have hvalues : (values.zip defs).map (·.1) = values := List.map_fst_zip (by omega)
  have hnames : (values.map (·.1)).Nodup := hl ▸ hn
  obtain ⟨js, hjs, hq⟩ := recordOf_ok (Q := fun p j =>
    (dumper Γ p.1.2).declared p.2.type = .ok j ∧ R p.2.type p.1.2 j) fun p hp => by
      obtain ⟨j, hj, hq⟩ := (h p hp).inferred
      exact ⟨j, hj, (hd p hp).trans hj, hq⟩
  rw [← inferred_record hn hl hb hd] at hjs
  have hread := hr js (hq.imp fun p m hm => ⟨hm.1, fun _ => hm.2.1, hm.2.2⟩)
  refine ⟨?_, _, hjs, hread⟩
  obtain ⟨body, hbody, hrec⟩ := Option.bind_eq_some_iff.mp hb
  cases body with
  | model fields extras =>
    cases hrec
    refine ⟨_, ?_, hread⟩
    rw [jsonable, hself rfl, dump, hjs]
    rfl
  | data fields =>
    cases hrec
    have hall : ∀ p ∈ values.zip defs, ∃ m : String × Json,
        fieldData Γ p.1 = .ok (m.1, .ofJson m.2) ∧ p.1.1 = m.1 ∧ R p.2.type p.1.2 m.2 := by
      intro p hp
      obtain ⟨j, hj, hq⟩ := (h p hp).alone
      exact ⟨(p.1.1, j), by rw [fieldData, hj]; rfl, rfl, hq⟩
    obtain ⟨ms, hms, hq⟩ := sequence_members hall
    have hfields : sequence (values.map (fieldData Γ)) = .ok (membersOf ms) := by
      rw [← hms]
      conv_lhs => rw [← hvalues, List.map_map]
      rfl
    have hkeys : ms.map (·.1) = values.map (·.1) := by
      rw [← map_eq_of_forall₂ hq fun _ _ hm => hm.1]
      conv_rhs => rw [← hvalues, List.map_map]
      rfl
    refine ⟨.object ms, ?_, hr ms (hq.imp fun p m hm => ⟨hm.1, by rintro ⟨⟩, hm.2⟩)⟩
    rw [jsonable, Classes.fieldNames, hbody]
    dsimp only
    rw [← hl, pickFields_own hnames, hfields, Except.map,
      settledObject_of_nodup (hkeys ▸ hnames)]
  | namedTuple => cases hrec
  | enumeration => cases hrec
  | plain => cases hrec

end

/-- Both encoders write a named tuple as what its items are, whatever is declared of them. -/
theorem Carried.namedTuple {cls : String} {defs : List FieldDef} {values : List (String × Value)}
    (hb : Γ.body? cls = some (.namedTuple defs)) (hl : values.map (·.1) = defs.map (·.name))
    (h : ∀ p ∈ values.zip defs, Carried Γ (Reads Γ) p.2.type p.1.2) :
    Carried Γ (Reads Γ) (.named cls) (.record .tuple cls values) := by
  have hlen : values.length = defs.length := by simpa using congrArg List.length hl
  have hvalues : (values.zip defs).map (·.1) = values := List.map_fst_zip (by omega)
  have hnamed {js : List Json} (hq : List.Forall₂ (fun (p : (String × Value) × FieldDef) j =>
      Reads Γ p.2.type p.1.2 j) (values.zip defs) js) :
      Reads Γ (.named cls) (.record .tuple cls values) (.array js) := .namedTuple hb hl hq
  have halone : ∃ j, jsonable Γ (.record .tuple cls values) = .ok (.ofJson j) ∧
      Reads Γ (.named cls) (.record .tuple cls values) j := by
    obtain ⟨js, hjs, hq⟩ := sequence_data fun p hp => (h p hp).alone
    have hseq : sequence ((jsonableFields Γ values).map (·.2)) = .ok (js.map .ofJson) := by
      rw [← hjs, jsonableFields_eq, List.map_map]
      conv_lhs => rw [← hvalues, List.map_map]
      rfl
    refine ⟨.array js, ?_, hnamed hq⟩
    rw [jsonable, hseq, Value.ofJson, Value.ofJsonItems_eq_map]
    rfl
  have hinferred : ∃ j, (dumper Γ (.record .tuple cls values)).inferred = .ok j ∧
      Reads Γ (.named cls) (.record .tuple cls values) j := by
    obtain ⟨js, hjs, hq⟩ := sequence_ok fun p hp => (h p hp).inferred
    have hseq : sequence (values.map fun f => (dumper Γ f.2).inferred) = .ok js := by
      rw [← hjs]
      conv_lhs => rw [← hvalues, List.map_map]
      rfl
    refine ⟨.array js, ?_, hnamed hq⟩
    change (sequence ((fieldDumpers Γ values).map fun f => f.2.inferred)).map Json.array = _
    rw [fieldDumpers_eq_map, List.map_map]
    exact congrArg (Except.map Json.array) hseq
  exact ⟨halone, hinferred⟩

theorem Carried.absent {spelling : Spelling} {Ts : List TypeExpr} (h : TypeExpr.noneType ∈ Ts) :
    Carried Γ (Reads Γ) (.union spelling Ts) .none :=
  carried_leaf rfl rfl (.absent h)

theorem Carried.present {spelling : Spelling} {Ts : List TypeExpr} (hv : v ≠ .none) (hT : T ∈ Ts)
    (hnull : T.isNull = false) (h : Carried Γ (Reads Γ) T v)
    (hs : ∀ U ∈ Ts, U.isNull = false → ¬ TypeExpr.Foreign Γ v U → Carried Γ (Reads Γ) U v) :
    Carried Γ (Reads Γ) (.union spelling Ts) v := by
  -- One way of writing makes one data, which all members read that are not foreign to it.
  have hjoint {Q : Json → Prop} (hQ : ∀ {i j}, Q i → Q j → i = j) (hx : ∃ j, Q j ∧ Reads Γ T v j)
      (hxs : ∀ U ∈ Ts, U.isNull = false → ¬ TypeExpr.Foreign Γ v U → ∃ j, Q j ∧ Reads Γ U v j) :
      ∃ j, Q j ∧ Reads Γ (.union spelling Ts) v j := by
    obtain ⟨j, hj, hr⟩ := hx
    refine ⟨j, hj, .present hv ⟨T, hT, hnull, hr⟩ fun U hU hUnull => ?_⟩
    by_cases hf : TypeExpr.Foreign Γ v U
    · exact .inr hf
    · obtain ⟨i, hi, hread⟩ := hxs U hU hUnull hf
      rw [hQ hj hi]
      exact .inl hread
  have halone {i j : Json} (hi : jsonable Γ v = .ok (.ofJson i))
      (hj : jsonable Γ v = .ok (.ofJson j)) : i = j :=
    ofJson_injective (Except.ok.inj (hi.symm.trans hj))
  have hdumped {x : Encoded} {i j : Json} (hi : x = .ok i) (hj : x = .ok j) : i = j :=
    Except.ok.inj (hi.symm.trans hj)
  exact ⟨hjoint halone h.alone fun U hU hn hf => (hs U hU hn hf).alone,
    hjoint hdumped h.inferred fun U hU hn hf => (hs U hU hn hf).inferred⟩

/-- What is plain data already is the same data to both encoders. -/
theorem exists_native {p : Primitive} (hn : Value.Native p v) (hp : Plain p v) :
    ∃ j, jsonable Γ v = .ok (.ofJson j) ∧ (dumper Γ v).inferred = .ok j ∧ Value.ofJson j = v ∧
      Reads Γ (.primitive p) v j := by
  cases hp with
  | int h => exact ⟨_, rfl, rfl, rfl, .int h⟩
  | bool b => exact ⟨_, rfl, rfl, rfl, .bool b⟩
  | str s => exact ⟨_, rfl, rfl, rfl, .str s⟩
  | float h => exact ⟨_, rfl, inferred_float h, rfl, .float h⟩
  | _ => cases hn

theorem Carried.native {spelling : Spelling} {Ts : List TypeExpr} {p : Primitive}
    (hn : Value.Native p v) (hp : Plain p v) (hT : .primitive p ∈ Ts)
    (h : ∀ T ∈ Ts, T.modest = true) : Carried Γ (Reads Γ) (.union spelling Ts) v := by
  obtain ⟨j, hj, hinferred, hof, hr⟩ := exists_native (Γ := Γ) hn hp
  exact carried_leaf hj hinferred (.native hn hr hof hT h)

end Payload
end WorkflowClient
