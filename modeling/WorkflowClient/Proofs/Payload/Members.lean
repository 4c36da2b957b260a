import WorkflowClient.Catalog

/-! Members of a union that pass a value over: what it is written as is not for them. -/
namespace WorkflowClient

/-- Records whose fields go out and come in by name, with those fields. -/
def ClassBody.record? : ClassBody → Option (RecordKind × List FieldDef)
  | .model fields _ => some (.model, fields)
  | .data fields => some (.data, fields)
  | _ => none

/-- What data other than null looks like from outside. -/
inductive Outline
  | scalar
  | array
  | object

namespace Value

/-- The outline that a value is written in. The null value has none. -/
def outline? : Value → Option Outline
  | .none => Option.none
  | .sequence .. | .record .tuple .. => some .array
  | .dict _ | .record .. => some .object
  | _ => some .scalar

theorem outline?_eq_none {v : Value} (h : v.outline? = Option.none) : v = .none := by
  unfold outline? at h
  split at h <;> first | rfl | cases h

/-- Values that are plain data themselves, and their types. -/
inductive Native : Primitive → Value → Prop
  | bool (b : Bool) : Native .bool (.bool b)
  | int (n : Int) : Native .int (.int n)
  | float (x : Number.Double) : Native .float (.float x)
  | str (s : String) : Native .str (.str s)

theorem Native.isNull_eq_false {p : Primitive} {v : Value} (h : Native p v) :
    TypeExpr.isNull (.primitive p) = false := by
  cases h <;> rfl

theorem Native.ne_none {p : Primitive} {v : Value} (h : Native p v) : v ≠ .none := by
  cases h <;> simp

theorem Native.outline?_eq {p : Primitive} {v : Value} (h : Native p v) :
    v.outline? = some .scalar := by
  cases h <;> rfl

/-- Plain data has the outline that the value is written in, and the names of a record's fields. -/
structure Alike (v w : Value) : Prop where
  outline : w.outline? = v.outline?
  fields : ∀ {kind cls values}, v = .record kind cls values → kind ≠ .tuple →
    ∃ entries, w = .dict entries ∧ entries.map (·.1) = values.map fun f => .str f.1

theorem Alike.of_outline {v w : Value} (h : w.outline? = v.outline?)
    (hv : ∀ kind cls values, v = .record kind cls values → kind = .tuple) : Alike v w :=
  ⟨h, fun heq hk => absurd (hv _ _ _ heq) hk⟩

theorem Alike.ne_none {v w : Value} (h : Alike v w) (hv : v ≠ .none) : w ≠ .none := by
  rintro rfl
  exact hv (outline?_eq_none h.outline.symm)

end Value

def Primitive.outline? : Primitive → Option Outline
  | .list | .tuple | .set => some .array
  | .dict => some .object
  | .noneType => none
  | _ => some .scalar

def ClassBody.outline? : ClassBody → Option Outline
  | .model .. | .data _ => some .object
  | .enumeration mixin _ => if mixin = .plain then none else some .scalar
  | _ => none

theorem outline?_of_record {body : ClassBody} {kind : RecordKind} {defs : List FieldDef}
    (hb : body.record? = some (kind, defs)) (cls : String) (values : List (String × Value)) :
    (Value.record kind cls values).outline? = some .object := by
  cases body <;> cases hb <;> rfl

namespace TypeExpr

variable {Γ : Catalog} {T U : TypeExpr} {v : Value}

/-- The type without metadata and descriptors around it. -/
def bare : TypeExpr → TypeExpr
  | .annotated T _ => T.bare
  | .descriptor T => T.bare
  | T => T

/-- The outline of all data that a type is read from, where there is one. -/
def outline? (Γ : Catalog) : TypeExpr → Option Outline
  | .primitive p => p.outline?
  | .list .. | .set _ | .frozenSet _ | .tuple _ | .tupleOf _ => some .array
  | .dict .. => some .object
  | .named cls => (Γ.body? cls).bind ClassBody.outline?
  | _ => Option.none

/-- The fields of the objects that a type is read from. -/
def fields (Γ : Catalog) : TypeExpr → List FieldDef
  | .named cls => (((Γ.body? cls).bind ClassBody.record?).map (·.2)).getD []
  | _ => []

/-- The value is written in another outline than the type is read from, or is a record without a
field that the type needs. -/
def Foreign (Γ : Catalog) (v : Value) (T : TypeExpr) : Prop :=
  (∃ outline ∈ T.bare.outline? Γ, v.outline? ≠ some outline) ∨
    ∃ kind cls values, v = .record kind cls values ∧ kind ≠ .tuple ∧
      ∃ f ∈ T.bare.fields Γ, f.default = Option.none ∧ f.given ∉ values.map (·.1)

/-- No value of another type fits the type exactly. -/
def modest : TypeExpr → Bool
  | .primitive p => decide (p ≠ .uuid)
  | .literal _ | .union .. | .annotated .. | .descriptor _ => false
  | _ => true

theorem equals_bare : ∀ {U T : TypeExpr}, U.equals T = true → U.bare.equals T.bare = true
  | .annotated U _, T, h => by
    cases T <;> simp [equals] at h
    have hbare := equals_bare h.1
    exact hbare
  | .descriptor U, T, h => by
    cases T <;> simp [equals] at h
    have hbare := equals_bare h
    exact hbare
  | .any, T, h | .none, T, h | .primitive _, T, h | .named _, T, h | .list .., T, h | .set _, T, h
  | .frozenSet _, T, h | .dict .., T, h | .tuple _, T, h | .tupleOf _, T, h | .union .., T, h
  | .literal _, T, h => by
    cases T <;> simp_all [equals, bare]

theorem outline?_of_equals (h : U.equals T = true) : U.outline? Γ = T.outline? Γ := by
  cases U <;> cases T <;> simp_all [equals, outline?]

theorem fields_of_equals (h : U.equals T = true) : U.fields Γ = T.fields Γ := by
  cases U <;> cases T <;> simp_all [equals, fields]

theorem modest_of_equals (h : U.equals T = true) : U.modest = T.modest := by
  cases U <;> cases T <;> simp_all [equals, modest]

theorem foreign_of_equals (h : U.equals T = true) : Foreign Γ v U ↔ Foreign Γ v T := by
  unfold Foreign
  rw [outline?_of_equals (equals_bare h), fields_of_equals (equals_bare h)]

end TypeExpr
end WorkflowClient
