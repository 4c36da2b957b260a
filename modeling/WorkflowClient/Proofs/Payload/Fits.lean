import WorkflowClient.Payload.Dump
import WorkflowClient.Proofs.Payload.Parts
import WorkflowClient.Proofs.TypeExpr.Parts
import WorkflowClient.Proofs.Validation.Null

/-! Values exactly of a type fit it, and every type that they fit writes them as what they are. So it
does not matter which member of a union is the first that a value fits. -/
namespace WorkflowClient

/-- Types that are written by themselves. -/
def TypeExpr.single : TypeExpr → Bool
  | .annotated .. | .union .. => false
  | _ => true

namespace Payload

variable {Γ : Catalog} {T : TypeExpr} {v : Value} {s : Dumpable}

theorem dumpers_eq_map (items : List Value) : dumpers Γ items = items.map (dumper Γ) := by
  induction items with
  | nil => rfl
  | cons v rest ih => rw [dumpers, ih, List.map_cons]

theorem entryDumpers_eq_map (entries : List (Value × Value)) :
    entryDumpers Γ entries = entries.map fun e => (dumper Γ e.1, dumper Γ e.2) := by
  induction entries with
  | nil => rfl
  | cons e rest ih =>
    obtain ⟨k, v⟩ := e
    rw [entryDumpers, ih, List.map_cons]

theorem fieldDumpers_eq_map (fields : List (String × Value)) :
    fieldDumpers Γ fields = fields.map fun f => (f.1, dumper Γ f.2) := by
  induction fields with
  | nil => rfl
  | cons f rest ih =>
    obtain ⟨n, v⟩ := f
    rw [fieldDumpers, ih, List.map_cons]

theorem exists_dumpable (v : Value) : ∃ s : Dumpable, s.value = v ∧ dumper Γ v = s.dumper Γ := by
  cases v <;> exact ⟨_, rfl, rfl⟩

theorem value_dumper (v : Value) : (dumper Γ v).value = v := by
  obtain ⟨s, hs, hd⟩ := exists_dumpable (Γ := Γ) v
  rw [hd]
  exact hs

theorem typeForFirst_eq (p : TypeExpr → Bool) (Ts : List TypeExpr) :
    typeForFirst Γ s p Ts = (Ts.find? p).map (typeFor Γ s) := by
  induction Ts with
  | nil => rfl
  | cons T Ts ih =>
    rw [typeForFirst, ih, List.find?_cons]
    cases p T <;> rfl

theorem fitsSome_iff {near : Bool} {Ts : List TypeExpr} :
    fitsSome Γ near s Ts = true ↔ ∃ T ∈ Ts, fitsAs Γ near s T = true := by
  induction Ts <;> simp_all [fitsSome]

theorem eq_none_of_fitsPrimitive {near : Bool} (h : fitsPrimitive near .noneType v = true) :
    v = .none := by
  cases v <;> first | rfl | cases h

/-- No type for null fits another value. -/
theorem isNull_eq_false_of_fitsAs (hv : s.value ≠ .none) {near : Bool}
    (h : fitsAs Γ near s T = true) : T.isNull = false := by
  by_contra hnull
  refine hv ?_
  unfold TypeExpr.isNull at hnull
  split at hnull
  · exact eq_none_of_fitsPrimitive h
  · exact eq_none_of_fitsPrimitive h
  · simp only [fitsAs, TypeExpr.sameLiteral, List.any_cons, List.any_nil, Bool.or_false,
      Bool.and_eq_true] at h
    exact Value.eq_none_of_equals h.2
  · exact absurd rfl hnull

/-- A union that a value fits writes it by one of the members that it fits. -/
theorem exists_typeFor_union (hv : s.value ≠ .none) {spelling : Spelling} {Ts : List TypeExpr}
    (h : fitsAs Γ false s (.union spelling Ts) = true) :
    ∃ T ∈ Ts, fitsAs Γ false s T = true ∧
      typeFor Γ s (.union spelling Ts) = typeFor Γ s T := by
  obtain ⟨U, hU, hfit⟩ := fitsSome_iff.mp h
  rw [typeFor]
  simp only [typeForFirst_eq]
  split
  · rename_i hone
    have hpresent : U ∈ Ts.filter fun T => !T.isNull := by
      rw [List.mem_filter, isNull_eq_false_of_fitsAs hv hfit]
      exact ⟨hU, rfl⟩
    obtain ⟨W, hW⟩ := List.length_eq_one_iff.mp hone
    rw [hW, List.mem_singleton] at hpresent
    subst hpresent
    refine ⟨U, hU, hfit, ?_⟩
    rw [← List.head?_filter, hW]
    rfl
  · cases hfind : Ts.find? (fitsAs Γ false s) with
    | none => exact absurd hfit (by simpa using List.find?_eq_none.mp hfind U hU)
    | some T =>
      have hT : fitsAs Γ false s T = true := by simpa using List.find?_some hfind
      exact ⟨T, List.mem_of_find?_eq_some hfind, hT, rfl⟩

/-- The type by which a value is written is single, and the value fits it if it fits the type that
is declared. -/
theorem typeFor_fits (hv : s.value ≠ .none) (h : fitsAs Γ false s T = true) :
    (typeFor Γ s T).single = true ∧ fitsAs Γ false s (typeFor Γ s T) = true := by
  induction T using TypeExpr.inductParts with
  | applied T head hhead _ => cases T <;> first | exact ⟨rfl, h⟩ | cases hhead
  | union spelling Ts ih =>
    obtain ⟨T, hT, hfit, heq⟩ := exists_typeFor_union hv h
    rw [heq]
    exact ih T hT hfit
  | literal values => exact ⟨rfl, h⟩
  | annotated T metadata ih => exact ih h

/-- Every type that the value fits writes it as what it is. -/
def Dumper.Steady (d : Dumper) : Prop :=
  ∀ T, d.fits false T = true → d.declared T = d.inferred

/-- What a value is written as by what it is, is made of what its parts are written as so, and these
are steady. -/
structure Dumpable.Steady (Γ : Classes) (s : Dumpable) : Prop where
  float {x : Number.Double} : s.value = .float x → s.inferred = .ok (.float x)
  array {kind : SequenceKind} {items : List Value} : s.value = .sequence kind items →
    kind ≠ .queue → s.inferred = arrayOf (s.items.map (·.inferred))
  tuple {cls : String} {fields : List (String × Value)} : s.value = .record .tuple cls fields →
    s.inferred = arrayOf (s.items.map (·.inferred))
  object {entries : List (Value × Value)} : s.value = .dict entries →
    s.inferred = objectOf (s.entries.map fun e => (keyText e.1.value, e.2.inferred))
  record {kind : RecordKind} {cls : String} {fields : List (String × Value)} :
    s.value = .record kind cls fields → s.inferred = inferredRecord Γ kind cls s.fields
  items : ∀ d ∈ s.items, d.Steady
  names : ∀ e ∈ s.entries, ∀ K, e.1.named K = keyText e.1.value
  entries : ∀ e ∈ s.entries, e.2.Steady
  fields : ∀ f ∈ s.fields, f.2.Steady

namespace Dumpable.Steady

variable (hs : s.Steady Γ)
include hs

theorem declared_items (h : s.items.all (·.fits false T) = true) :
    arrayOf (s.items.map (·.declared T)) = arrayOf (s.items.map (·.inferred)) :=
  congrArg arrayOf <| List.map_congr_left fun d hd =>
    hs.items d hd T (List.all_eq_true.mp h d hd)

theorem declared_array {kind : SequenceKind} {items : List Value}
    (hv : s.value = .sequence kind items) (hk : kind ≠ .queue)
    (h : s.items.all (·.fits false T) = true) :
    arrayOf (s.items.map (·.declared T)) = s.inferred := by
  rw [hs.declared_items h, hs.array hv hk]

theorem inferred_of_isTuple (h : isTuple s.value = true) :
    s.inferred = arrayOf (s.items.map (·.inferred)) := by
  cases hv : s.value with
  | sequence kind items =>
    rw [hv] at h
    exact hs.array hv (by rintro rfl; cases h)
  | record kind cls fields =>
    rw [hv] at h
    cases kind <;> first | exact hs.tuple hv | cases h
  | _ => simp [hv, isTuple] at h

theorem declared_tuple {Ts : List TypeExpr} (hl : s.items.length = Ts.length)
    (h : ((s.items.zip Ts).all fun p => p.1.fits false p.2) = true) :
    s.items.zipWith (·.declared ·) Ts = s.items.map (·.inferred) := by
  have hitems : (s.items.zip Ts).map (·.1) = s.items := List.map_fst_zip hl.le
  have hpairs : s.items.zipWith (·.declared ·) Ts =
      (s.items.zip Ts).map fun p => p.1.declared p.2 := by
    rw [List.zip_eq_zipWith, List.map_zipWith]
  conv_rhs => rw [← hitems, List.map_map]
  rw [hpairs]
  refine List.map_congr_left fun p hp => ?_
  exact hs.items p.1 (List.of_mem_zip hp).1 p.2 (List.all_eq_true.mp h p hp)

theorem declared_object {K : TypeExpr} {entries : List (Value × Value)}
    (hv : s.value = .dict entries)
    (h : (s.entries.all fun e => e.1.fits true K && e.2.fits false T) = true) :
    objectOf (s.entries.map fun e => (e.1.named K, e.2.declared T)) = s.inferred := by
  rw [hs.object hv]
  refine congrArg objectOf (List.map_congr_left fun e he => ?_)
  have hfit := (Bool.and_eq_true_iff.mp (List.all_eq_true.mp h e he)).2
  rw [hs.names e he K, hs.entries e he T hfit]

theorem declaredFields_eq {defs : List FieldDef} (h : fitsFields false defs s.fields = true) :
    declaredFields defs s.fields = s.fields.map fun f => (f.1, f.2.inferred) := by
  rw [declaredFields, ← List.filterMap_eq_map]
  refine List.filterMap_congr fun f hf => ?_
  have hfit := List.all_eq_true.mp (Bool.and_eq_true_iff.mp h).2 f hf
  cases htype : typeOf? defs f.1 with
  | none => simp [htype] at hfit
  | some T =>
    simp only [htype] at hfit
    simp [hs.fields f hf T hfit]

theorem dumpNamed_eq {cls : String} (h : fitsNamed Γ false cls s = true) :
    dumpNamed Γ cls s = s.inferred := by
  unfold fitsNamed at h
  unfold dumpNamed
  split at h
  · rename_i defs _ c fields hbody hv
    simp only [Bool.false_and, Bool.or_false, Bool.and_eq_true, beq_iff_eq] at h
    obtain ⟨rfl, hfields⟩ := h
    rw [hbody, hv, hs.record hv]
    simp [inferredRecord, ownFields?, hbody]
  · rename_i defs c fields hbody hv
    simp only [Bool.false_and, Bool.or_false, Bool.and_eq_true, beq_iff_eq] at h
    obtain ⟨rfl, hfields⟩ := h
    have hsub : Γ.isSubclass c c = true := by simp [Classes.isSubclass]
    have hwritten := hs.declaredFields_eq hfields
    rw [hbody, hv, hs.record hv]
    cases hown : Γ.dumpsItself c <;>
      simp [inferredRecord, ownFields?, hbody, hown, hsub, hwritten]
  · rename_i hbody hv
    rw [hbody, hv]
  · rename_i hbody
    rw [hbody]
  · cases h

theorem dumpBy_eq (hT : T.single = true) (h : fitsAs Γ false s T = true) :
    dumpBy Γ s T = s.inferred := by
  cases T with
  | primitive p =>
    cases hv : s.value <;> cases p <;> simp_all [dumpBy, fitsAs, fitsPrimitive]
    exact (hs.float hv).symm
  | list spelling T =>
    rw [fitsAs] at h
    rw [dumpBy]
    split at h
    · exact hs.declared_array ‹_› (by decide) h
    · cases h
  | set T =>
    rw [fitsAs] at h
    rw [dumpBy]
    split at h
    · exact hs.declared_array ‹_› (by decide) h
    · cases h
  | frozenSet T =>
    rw [fitsAs] at h
    rw [dumpBy]
    split at h
    · exact hs.declared_array ‹_› (by decide) h
    · cases h
  | tupleOf T =>
    rw [fitsAs, Bool.and_eq_true] at h
    rw [dumpBy, if_pos h.1, hs.declared_items h.2, hs.inferred_of_isTuple h.1]
  | tuple Ts =>
    rw [fitsAs, Bool.and_eq_true] at h
    rw [dumpBy, if_pos h.1]
    simp only [Bool.and_eq_true, beq_iff_eq] at h
    rw [hs.declared_tuple h.1.2 h.2, hs.inferred_of_isTuple h.1.1]
  | dict spelling K T =>
    rw [fitsAs] at h
    rw [dumpBy]
    split at h
    · exact hs.declared_object ‹_› h
    · cases h
  | named cls => exact hs.dumpNamed_eq h
  | annotated | union => cases hT
  | any | none | literal | descriptor => rfl

end Dumpable.Steady

theorem dumpBy_of_none (hs : s.value = .none) (T : TypeExpr) : dumpBy Γ s T = s.inferred := by
  unfold dumpBy
  split <;> simp_all [dumpNamed, isTuple]

theorem steady_of_dumpable (hd : dumper Γ v = s.dumper Γ) (hs : s.Steady Γ) :
    (dumper Γ v).Steady := by
  intro T hT
  rw [hd] at hT ⊢
  change dumpBy Γ s (typeFor Γ s T) = s.inferred
  by_cases hv : s.value = .none
  · exact dumpBy_of_none hv _
  · obtain ⟨hsingle, hfit⟩ := typeFor_fits hv hT
    exact hs.dumpBy_eq hsingle hfit

/-- The value is of the very classes that the type names, and every such type writes it as what it
is. -/
structure Fitting (Γ : Classes) (T : TypeExpr) (v : Value) : Prop where
  fits : (dumper Γ v).fits false T = true
  steady : (dumper Γ v).Steady

theorem Fitting.declared (h : Fitting Γ T v) : (dumper Γ v).declared T = (dumper Γ v).inferred :=
  h.steady T h.fits

theorem steady_scalar {data : Encoded}
    (hd : dumper Γ v = Dumpable.dumper Γ { value := v, inferred := data })
    (hv : v.outline? ≠ some .array ∧ v.outline? ≠ some .object)
    (hfloat : ∀ x, v = .float x → data = .ok (.float x)) : (dumper Γ v).Steady :=
  steady_of_dumpable hd
    { float := hfloat _
      array := by
        rintro kind items rfl
        exact absurd rfl hv.1
      tuple := by
        rintro cls fields rfl
        exact absurd rfl hv.1
      object := by
        rintro entries rfl
        exact absurd rfl hv.2
      record := by
        rintro kind cls fields rfl
        cases kind <;> first | exact absurd rfl hv.1 | exact absurd rfl hv.2
      items := nofun
      names := nofun
      entries := nofun
      fields := nofun }

theorem Fitting.plain {p : Primitive} (h : Plain p v) : Fitting Γ (.primitive p) v := by
  have hfinite : ∀ x, v = .float x → leafData v = .ok (.float x) := by
    rintro x rfl
    cases h with
    | float h => rw [leafData, if_pos h]
  cases h <;> exact ⟨rfl, steady_scalar rfl ⟨by rintro ⟨⟩, by rintro ⟨⟩⟩ hfinite⟩

theorem Fitting.member {mixin : Mixin} {cls name : String} {members : List (String × Value)}
    {value : Value} (hb : Γ.body? cls = some (.enumeration mixin members)) :
    Fitting Γ (.named cls) (.member mixin cls name value) := by
  refine ⟨?_, steady_scalar rfl ⟨by rintro ⟨⟩, by rintro ⟨⟩⟩ (by rintro x ⟨⟩)⟩
  change fitsNamed Γ false cls _ = true
  unfold fitsNamed
  rw [hb]
  exact beq_self_eq_true cls

theorem steady_sequence {kind : SequenceKind} {items : List Value} (hk : kind ≠ .queue)
    (h : ∀ v ∈ items, (dumper Γ v).Steady) : (dumper Γ (.sequence kind items)).Steady := by
  refine steady_of_dumpable rfl
    { float := nofun
      array := fun _ _ => ?_
      tuple := nofun
      object := nofun
      record := nofun
      items := ?_
      names := nofun
      entries := nofun
      fields := nofun }
  · cases kind <;> first | rfl | exact absurd rfl hk
  · rw [dumpers_eq_map]
    simpa using h

theorem all_fits (near : Bool) (T : TypeExpr) (items : List Value) :
    (dumpers Γ items).all (·.fits near T) = items.all fun v => (dumper Γ v).fits near T := by
  rw [dumpers_eq_map, List.all_map]
  rfl

/-- A sequence of values that fit one type. -/
theorem fitting_items {kind : SequenceKind} {items : List Value} {U : TypeExpr}
    (hk : kind ≠ .queue)
    (hfit : (dumper Γ (.sequence kind items)).fits false U =
      (dumpers Γ items).all (·.fits false T))
    (h : ∀ v ∈ items, Fitting Γ T v) : Fitting Γ U (.sequence kind items) := by
  refine ⟨?_, steady_sequence hk fun v hv => (h v hv).steady⟩
  rw [hfit, all_fits]
  exact List.all_eq_true.mpr fun v hv => (h v hv).fits

theorem Fitting.list {spelling : Spelling} {items : List Value} (h : ∀ v ∈ items, Fitting Γ T v) :
    Fitting Γ (.list spelling T) (.sequence .list items) :=
  fitting_items (by decide) rfl h

theorem Fitting.set {items : List Value} (h : ∀ v ∈ items, Fitting Γ T v) :
    Fitting Γ (.set T) (.sequence .set items) :=
  fitting_items (by decide) rfl h

theorem Fitting.frozenSet {items : List Value} (h : ∀ v ∈ items, Fitting Γ T v) :
    Fitting Γ (.frozenSet T) (.sequence .frozenSet items) :=
  fitting_items (by decide) rfl h

theorem Fitting.tupleOf {items : List Value} (h : ∀ v ∈ items, Fitting Γ T v) :
    Fitting Γ (.tupleOf T) (.sequence .tuple items) :=
  fitting_items (by decide) rfl h

theorem Fitting.tuple {items : List Value} {Ts : List TypeExpr} (hl : items.length = Ts.length)
    (h : ∀ p ∈ items.zip Ts, Fitting Γ p.2 p.1) :
    Fitting Γ (.tuple Ts) (.sequence .tuple items) := by
  have hitems : (items.zip Ts).map (·.1) = items := List.map_fst_zip hl.le
  constructor
  · change (true && (dumpers Γ items).length == Ts.length &&
      ((dumpers Γ items).zip Ts).all fun p => p.1.fits false p.2) = true
    rw [dumpers_eq_map, List.length_map, hl, beq_self_eq_true, List.zip_map_left, List.all_map]
    exact List.all_eq_true.mpr fun p hp => (h p hp).fits
  · refine steady_sequence (by decide) fun v hv => ?_
    rw [← hitems] at hv
    obtain ⟨p, hp, rfl⟩ := List.mem_map.mp hv
    exact (h p hp).steady

/-- Only floats, truth values and tuples are named by declared types. -/
theorem nameBy_eq_keyText (hfloat : ∀ x, s.value ≠ .float x) (hbool : ∀ b, s.value ≠ .bool b)
    (htuple : isTuple s.value = false) (K : TypeExpr) : nameBy s K = keyText s.value := by
  unfold nameBy
  split
  · split
    · exact absurd ‹_› (hfloat _)
    · rfl
  · split
    · exact absurd ‹_› (hbool _)
    · rfl
  · rw [if_neg (by simp [htuple])]
  · rw [if_neg (by simp [htuple])]
  · rfl

theorem named_key {K : Primitive} {k : Value} (h : Key K k) (U : TypeExpr) :
    (dumper Γ k).named U = keyText k := by
  obtain ⟨s, hv, hd⟩ := exists_dumpable (Γ := Γ) k
  have hname : nameBy s (typeFor Γ s U) = keyText s.value := by
    refine nameBy_eq_keyText ?_ ?_ ?_ _ <;> rw [hv] <;> cases h <;> simp [isTuple]
  rw [hd, ← hv]
  exact hname

theorem Fitting.dict {spelling : Spelling} {K : Primitive} {entries : List (Value × Value)}
    (hk : ∀ e ∈ entries, Key K e.1) (h : ∀ e ∈ entries, Fitting Γ T e.2) :
    Fitting Γ (.dict spelling (.primitive K) T) (.dict entries) := by
  constructor
  · change ((entryDumpers Γ entries).all fun e =>
      e.1.fits true (.primitive K) && e.2.fits false T) = true
    rw [entryDumpers_eq_map, List.all_map]
    refine List.all_eq_true.mpr fun e he => Bool.and_eq_true_iff.mpr ⟨?_, (h e he).fits⟩
    cases e with
    | mk k v =>
      obtain hkey : Key K k := hk _ he
      cases hkey <;> rfl
  · refine steady_of_dumpable rfl
      { float := nofun
        array := nofun
        tuple := nofun
        object := fun _ => rfl
        record := nofun
        items := nofun
        names := ?_
        entries := ?_
        fields := nofun }
    · rw [entryDumpers_eq_map]
      refine List.forall_mem_map.mpr fun e he U => ?_
      rw [named_key (hk e he), value_dumper]
    · rw [entryDumpers_eq_map]
      exact List.forall_mem_map.mpr fun e he => (h e he).steady

theorem steady_record {kind : RecordKind} {cls : String} {fields : List (String × Value)}
    (h : ∀ f ∈ fields, (dumper Γ f.2).Steady) : (dumper Γ (.record kind cls fields)).Steady := by
  have hparts : ∀ f ∈ fieldDumpers Γ fields, f.2.Steady := by
    rw [fieldDumpers_eq_map]
    exact List.forall_mem_map.mpr h
  refine steady_of_dumpable rfl
    { float := nofun
      array := nofun
      tuple := ?_
      object := nofun
      record := ?_
      items := ?_
      names := nofun
      entries := nofun
      fields := hparts }
  · rintro _ _ ⟨⟩
    change arrayOf _ = arrayOf ((List.map _ _).map _)
    rw [List.map_map]
    rfl
  · rintro _ _ _ ⟨⟩
    rfl
  · intro d hd
    obtain ⟨f, hf, rfl⟩ := List.mem_map.mp hd
    exact hparts f hf

theorem typeOf?_of_mem {defs : List FieldDef} {f : FieldDef} (hn : (defs.map (·.name)).Nodup)
    (hf : f ∈ defs) : typeOf? defs f.name = some f.type := by
  rw [typeOf?, find?_of_nodup hn hf]
  rfl

/-- Fields under the names that are declared fit if each is of its type. -/
theorem fitsFields_of_zip {near : Bool} {defs : List FieldDef} {values : List (String × Value)}
    (hn : (defs.map (·.name)).Nodup) (hl : values.map (·.1) = defs.map (·.name))
    (h : ∀ p ∈ values.zip defs, (dumper Γ p.1.2).fits near p.2.type = true) :
    fitsFields near defs (fieldDumpers Γ values) = true := by
  have hlen : values.length = defs.length := by simpa using congrArg List.length hl
  have hvalues : (values.zip defs).map (·.1) = values := List.map_fst_zip (by omega)
  rw [fitsFields, fieldDumpers_eq_map, Bool.and_eq_true, List.all_eq_true, List.all_eq_true]
  refine ⟨fun d hd => ?_, List.forall_mem_map.mpr fun f hf => ?_⟩
  · have hname : d.name ∈ values.map (·.1) := hl ▸ List.mem_map_of_mem hd
    obtain ⟨f, hf, hfd⟩ := List.mem_map.mp hname
    rw [List.any_map]
    exact List.any_eq_true.mpr ⟨f, hf, by simp [hfd]⟩
  · rw [← hvalues] at hf
    obtain ⟨p, hp, rfl⟩ := List.mem_map.mp hf
    have htype := typeOf?_of_mem hn (List.of_mem_zip hp).2
    rw [name_of_mem_zip hl hp] at htype
    dsimp only
    rw [htype]
    exact h p hp

section
variable {kind : RecordKind} {cls : String} {defs : List FieldDef} {values : List (String × Value)}
  (hl : values.map (·.1) = defs.map (·.name)) (h : ∀ p ∈ values.zip defs, Fitting Γ p.2.type p.1.2)
include hl h

theorem steady_fields : ∀ f ∈ values, (dumper Γ f.2).Steady := by
  have hlen : values.length = defs.length := by simpa using congrArg List.length hl
  have hvalues : (values.zip defs).map (·.1) = values := List.map_fst_zip (by omega)
  rw [← hvalues]
  exact List.forall_mem_map.mpr fun p hp => (h p hp).steady

theorem Fitting.record (hb : (Γ.body? cls).bind ClassBody.record? = some (kind, defs))
    (hn : (defs.map (·.name)).Nodup) : Fitting Γ (.named cls) (.record kind cls values) := by
  refine ⟨?_, steady_record (steady_fields hl h)⟩
  have hfields := fitsFields_of_zip hn hl fun p hp => (h p hp).fits
  change fitsNamed Γ false cls _ = true
  unfold fitsNamed
  obtain ⟨body, hbody, hrec⟩ := Option.bind_eq_some_iff.mp hb
  rw [hbody]
  cases body <;> cases hrec <;> simpa using hfields

theorem Fitting.namedTuple (hb : Γ.body? cls = some (.namedTuple defs)) :
    Fitting Γ (.named cls) (.record .tuple cls values) := by
  refine ⟨?_, steady_record (steady_fields hl h)⟩
  change fitsNamed Γ false cls _ = true
  unfold fitsNamed
  rw [hb]

end

theorem Fitting.union {spelling : Spelling} {Ts : List TypeExpr} (hT : T ∈ Ts)
    (h : Fitting Γ T v) : Fitting Γ (.union spelling Ts) v := by
  obtain ⟨s, -, hd⟩ := exists_dumpable (Γ := Γ) v
  refine ⟨?_, h.steady⟩
  have hfits := h.fits
  rw [hd] at hfits ⊢
  exact fitsSome_iff.mpr ⟨T, hT, hfits⟩

theorem Fitting.annotated {metadata : List Value} (h : Fitting Γ T v) :
    Fitting Γ (.annotated T metadata) v := by
  obtain ⟨s, -, hd⟩ := exists_dumpable (Γ := Γ) v
  refine ⟨?_, h.steady⟩
  have hfits := h.fits
  rw [hd] at hfits ⊢
  exact hfits

theorem Fitting.descriptor (h : Fitting Γ T v) : Fitting Γ (.descriptor T) v := by
  obtain ⟨s, -, hd⟩ := exists_dumpable (Γ := Γ) v
  refine ⟨?_, h.steady⟩
  rw [hd]
  rfl

end Payload
open Payload (Fitting)

theorem Inhabits.fitting {Γ : Catalog} {T : TypeExpr} {v : Value} (h : Inhabits Γ T v) :
    Fitting Γ T v := by
  induction h with
  | plain h => exact .plain h
  | member hb hd hm => exact .member hb
  | list h ih => exact .list ih
  | tupleOf h ih => exact .tupleOf ih
  | tuple hl h ih => exact .tuple hl ih
  | set hs h ih => exact .set ih
  | frozenSet hs h ih => exact .frozenSet ih
  | dict hu hk h ih => exact .dict hk ih
  | absent h => exact .union h (.plain .null)
  | present hv hT hne h hs ih ihs => exact .union hT ih
  | native hn hp hT h => exact .union hT (.plain hp)
  | record hb hn ha hl h ih => exact .record hl ih hb hn
  | namedTuple hb hl h ih => exact .namedTuple hl ih hb
  | annotated h ih => exact ih.annotated
  | descriptor h ih => exact ih.descriptor

end WorkflowClient
