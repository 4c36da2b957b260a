import WorkflowClient.Json.Basic
import WorkflowClient.Proofs.Calendar.Iso
import WorkflowClient.Proofs.Json.Entries
import WorkflowClient.Proofs.Payload.Members
import WorkflowClient.Proofs.TypeExpr.Equality

/-! Values that are exactly of a type, through and through. -/
namespace WorkflowClient
open TypeExpr (noneType Foreign)

/-- Members of an enumeration are told apart by texts, or by integers. -/
inductive Distinct : Mixin → List (String × Value) → Prop
  | texts {mixin : Mixin} {names : List (String × String)} (hm : mixin ≠ .integer)
      (h : (names.map (·.2)).Nodup) : Distinct mixin (names.map fun n => (n.1, .str n.2))
  | integers {mixin : Mixin} {names : List (String × Int)} (hm : mixin ≠ .text)
      (h : (names.map (·.2)).Nodup) (hw : ∀ n ∈ names, Number.writable n.2 = true) :
      Distinct mixin (names.map fun n => (n.1, .int n.2))

/-- A value without parts, of a type with one word. -/
inductive Plain : Primitive → Value → Prop
  | int {n : Int} (h : Number.writable n = true) : Plain .int (.int n)
  | bool (b : Bool) : Plain .bool (.bool b)
  | str (s : String) : Plain .str (.str s)
  | null : Plain .noneType .none
  | float {x : Number.Double} (h : x.isFinite = true) : Plain .float (.float x)
  | decimal {d : Number.Decimal} (h : d.isFinite = true) : Plain .decimal (.decimal d)
  | uuid (u : Uuid) : Plain .uuid (.uuid u)
  | date (d : Calendar.Date) : Plain .date (.date d)
  | clock {c : Calendar.Clock} (h : c.Readable) : Plain .clock (.clock c)
  | instant {t : Calendar.Instant} (h : t.Readable) : Plain .instant (.instant t)

/-- A key that is shown by one text, and whose type can be read off that text. -/
inductive Key : Primitive → Value → Prop
  | str (s : String) : Key .str (.str s)
  | int {n : Int} (h : Number.writable n = true) : Key .int (.int n)
  | uuid (u : Uuid) : Key .uuid (.uuid u)
  | date (d : Calendar.Date) : Key .date (.date d)
  | decimal {d : Number.Decimal} (h : d.isFinite = true) : Key .decimal (.decimal d)

theorem Key.plain {K : Primitive} {k : Value} (h : Key K k) : Plain K k := by
  cases h with
  | str s => exact .str s
  | int h => exact .int h
  | uuid u => exact .uuid u
  | date d => exact .date d
  | decimal h => exact .decimal h

/-- What a set can hold: values that never change, no two of them equal. -/
structure SetItems (Γ : Catalog) (items : List Value) : Prop where
  hashable : ∀ v ∈ items, v.hashable Γ.isFrozen = true
  distinct : items.Pairwise fun v w => (v == w) = false

/-- A value exactly of a type: no part of it is of a type that only stands for the one that is
declared. Fields of records have their own names in input too. -/
inductive Inhabits (Γ : Catalog) : TypeExpr → Value → Prop
  | plain {p : Primitive} {v : Value} (h : Plain p v) : Inhabits Γ (.primitive p) v
  | member {mixin : Mixin} {cls name : String} {members : List (String × Value)} {value : Value}
      (hb : Γ.body? cls = some (.enumeration mixin members)) (hd : Distinct mixin members)
      (hm : (name, value) ∈ members) : Inhabits Γ (.named cls) (.member mixin cls name value)
  | list {spelling : Spelling} {T : TypeExpr} {items : List Value}
      (h : ∀ v ∈ items, Inhabits Γ T v) : Inhabits Γ (.list spelling T) (.sequence .list items)
  | tupleOf {T : TypeExpr} {items : List Value} (h : ∀ v ∈ items, Inhabits Γ T v) :
      Inhabits Γ (.tupleOf T) (.sequence .tuple items)
  | tuple {Ts : List TypeExpr} {items : List Value} (hl : items.length = Ts.length)
      (h : ∀ p ∈ items.zip Ts, Inhabits Γ p.2 p.1) : Inhabits Γ (.tuple Ts) (.sequence .tuple items)
  | set {T : TypeExpr} {items : List Value} (hs : SetItems Γ items)
      (h : ∀ v ∈ items, Inhabits Γ T v) : Inhabits Γ (.set T) (.sequence .set items)
  | frozenSet {T : TypeExpr} {items : List Value} (hs : SetItems Γ items)
      (h : ∀ v ∈ items, Inhabits Γ T v) : Inhabits Γ (.frozenSet T) (.sequence .frozenSet items)
  | dict {spelling : Spelling} {K : Primitive} {T : TypeExpr} {entries : List (Value × Value)}
      (hu : Json.Unrepeated entries) (hk : ∀ e ∈ entries, Key K e.1)
      (h : ∀ e ∈ entries, Inhabits Γ T e.2) :
      Inhabits Γ (.dict spelling (.primitive K) T) (.dict entries)
  | absent {spelling : Spelling} {Ts : List TypeExpr} (h : noneType ∈ Ts) :
      Inhabits Γ (.union spelling Ts) .none
  | present {spelling : Spelling} {Ts : List TypeExpr} {T : TypeExpr} {v : Value} (hv : v ≠ .none)
      (hT : T ∈ Ts) (hne : T ≠ noneType) (h : Inhabits Γ T v)
      (hs : ∀ U ∈ Ts, U ≠ noneType → ¬ Foreign Γ v U → Inhabits Γ U v) :
      Inhabits Γ (.union spelling Ts) v
  | native {spelling : Spelling} {Ts : List TypeExpr} {p : Primitive} {v : Value}
      (hn : Value.Native p v) (hp : Plain p v) (hT : .primitive p ∈ Ts)
      (h : ∀ T ∈ Ts, T.modest = true) : Inhabits Γ (.union spelling Ts) v
  | record {kind : RecordKind} {cls : String} {defs : List FieldDef}
      {values : List (String × Value)}
      (hb : (Γ.body? cls).bind ClassBody.record? = some (kind, defs))
      (hn : (defs.map (·.name)).Nodup) (ha : ∀ d ∈ defs, d.inputName = none)
      (hl : values.map (·.1) = defs.map (·.name))
      (h : ∀ p ∈ values.zip defs, Inhabits Γ p.2.type p.1.2) :
      Inhabits Γ (.named cls) (.record kind cls values)
  | namedTuple {cls : String} {defs : List FieldDef} {values : List (String × Value)}
      (hb : Γ.body? cls = some (.namedTuple defs)) (hl : values.map (·.1) = defs.map (·.name))
      (h : ∀ p ∈ values.zip defs, Inhabits Γ p.2.type p.1.2) :
      Inhabits Γ (.named cls) (.record .tuple cls values)
  | annotated {T : TypeExpr} {metadata : List Value} {v : Value} (h : Inhabits Γ T v) :
      Inhabits Γ (.annotated T metadata) v
  | descriptor {T : TypeExpr} {v : Value} (h : Inhabits Γ T v) : Inhabits Γ (.descriptor T) v

variable {Γ : Catalog} {T U : TypeExpr} {v : Value}

theorem Inhabits.isNull_eq_false (h : Inhabits Γ T v) (hv : v ≠ .none) : T.isNull = false := by
  cases h with
  | plain h => cases h <;> first | rfl | exact absurd rfl hv
  | absent => exact absurd rfl hv
  | _ => rfl

theorem TypeExpr.eq_noneType_of_equals_left (h : noneType.equals T = true) : T = noneType := by
  cases T <;> simp_all [noneType, TypeExpr.equals]

theorem TypeExpr.eq_noneType_of_equals_right (h : T.equals noneType = true) : T = noneType := by
  cases T <;> simp_all [noneType, TypeExpr.equals]

/-- Equal types are the same but for the order of members and the spelling of unions, so they have
the same values. -/
theorem Inhabits.of_equals (h : Inhabits Γ T v) (he : U.equals T = true) : Inhabits Γ U v := by
  induction h generalizing U with
  | plain h =>
    cases U <;> simp [TypeExpr.equals] at he
    subst he
    exact .plain h
  | member hb hd hm =>
    cases U <;> simp [TypeExpr.equals] at he
    subst he
    exact .member hb hd hm
  | list h ih =>
    cases U <;> simp [TypeExpr.equals] at he
    obtain ⟨rfl, he⟩ := he
    exact .list fun v hv => ih v hv he
  | tupleOf h ih =>
    cases U <;> simp [TypeExpr.equals] at he
    exact .tupleOf fun v hv => ih v hv he
  | tuple hl h ih =>
    cases U <;> simp [TypeExpr.equals] at he
    have hitems := TypeExpr.equalAll_iff.mp he
    refine .tuple (hl.trans hitems.length_eq.symm) fun p hp => ?_
    obtain ⟨b, hb, hpb⟩ := exists_mem_zip hitems hp
    exact ih _ hb hpb
  | set hs h ih =>
    cases U <;> simp [TypeExpr.equals] at he
    exact .set hs fun v hv => ih v hv he
  | frozenSet hs h ih =>
    cases U <;> simp [TypeExpr.equals] at he
    exact .frozenSet hs fun v hv => ih v hv he
  | dict hu hk h ih =>
    cases U <;> simp [TypeExpr.equals] at he
    rename_i sp K W
    obtain ⟨⟨rfl, hK⟩, he⟩ := he
    cases K <;> simp [TypeExpr.equals] at hK
    subst hK
    exact .dict hu hk fun e hmem => ih e hmem he
  | absent h =>
    cases U <;> simp [TypeExpr.equals] at he
    obtain ⟨U, hU, heU⟩ := TypeExpr.someEquals_iff.mp (he.2 _ h)
    rw [TypeExpr.eq_noneType_of_equals_right heU] at hU
    exact .absent hU
  | @present spelling Ts T v hv hT hne h hs ih ihs =>
    cases U <;> simp [TypeExpr.equals] at he
    obtain ⟨W, hW, heW⟩ := TypeExpr.someEquals_iff.mp (he.2 T hT)
    refine .present hv hW (fun hnull => hne ?_) (ih heW) fun U hU hneU hf => ?_
    · subst hnull
      exact TypeExpr.eq_noneType_of_equals_left heW
    · obtain ⟨T, hT, heT⟩ := TypeExpr.allAmong_iff.mp he.1 U hU
      refine ihs T hT (fun hnull => hneU ?_)
        (fun hfT => hf ((TypeExpr.foreign_of_equals heT).mpr hfT)) heT
      subst hnull
      exact TypeExpr.eq_noneType_of_equals_right heT
  | @native spelling Ts p v hn hp hT h =>
    cases U <;> simp [TypeExpr.equals] at he
    refine .native hn hp ?_ fun U hU => ?_
    · obtain ⟨U, hU, heU⟩ := TypeExpr.someEquals_iff.mp (he.2 _ hT)
      cases U <;> simp [TypeExpr.equals] at heU
      subst heU
      exact hU
    · obtain ⟨T, hT, heT⟩ := TypeExpr.allAmong_iff.mp he.1 U hU
      rw [TypeExpr.modest_of_equals heT]
      exact h T hT
  | record hb hn ha hl h ih =>
    cases U <;> simp [TypeExpr.equals] at he
    subst he
    exact .record hb hn ha hl h
  | namedTuple hb hl h ih =>
    cases U <;> simp [TypeExpr.equals] at he
    subst he
    exact .namedTuple hb hl h
  | annotated h ih =>
    cases U <;> simp [TypeExpr.equals] at he
    exact .annotated (ih he.1)
  | descriptor h ih =>
    cases U <;> simp [TypeExpr.equals] at he
    exact .descriptor (ih he)

end WorkflowClient
