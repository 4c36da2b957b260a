import WorkflowClient.Calendar.Iso
import WorkflowClient.Catalog
import WorkflowClient.Json.Basic
import WorkflowClient.Text.Unicode
import WorkflowClient.Value.Text

/-! How models dump themselves that leave it to the types of their fields: values by the types that
are declared for them, where they are of these, and everything else by what it is. -/
namespace WorkflowClient.Payload

def octetsText (data : List UInt8) : Except EncodeFault String :=
  match Text.utf8? data with
  | some s => .ok s
  | none => .error .undecodable

/-- The data of a value without parts. -/
def leafData : Value → Encoded
  | .none => .ok .null
  | .bool b => .ok (.bool b)
  | .int n => .ok (.int n)
  | .float x => .ok (if x.isFinite then .float x else .null)
  | .str s => .ok (.str s)
  | .octets .view _ => .error .unserializable
  | .octets _ data => (octetsText data).map .str
  | .date d => .ok (.str (String.ofList d.chars))
  | .clock c => .ok (.str (String.ofList c.zuluChars))
  | .instant t => .ok (.str (String.ofList t.zuluChars))
  | .span n => .ok (.str (String.ofList (Calendar.spanChars n)))
  | .uuid u => .ok (.str u.text)
  | .decimal d => .ok (.str d.text)
  | .complex re im =>
    let sign := if im.isNegative then "" else "+"
    .ok (.str (Value.partText re ++ sign ++ Value.partText im ++ "j"))
  | _ => .error .unserializable

/-- A container can name no member. -/
def unusableKey (className : String) : EncodeFault :=
  .raised ⟨"TypeError", "\x60" ++ className ++ "\x60 not valid as object key"⟩

mutual

/-- The text of a value as the name of a member. -/
def keyText : Value → Except EncodeFault String
  | .none => .ok "None"
  | .bool b => .ok (if b then "true" else "false")
  | .int n => if Number.writable n then .ok (toString n) else .error .integerTooLong
  | .float x => .ok (if x.isFinite then x.text else "None")
  | .sequence .tuple items => (keyTexts items).map (String.intercalate ",")
  | .record .tuple _ fields => (fieldKeyTexts fields).map (String.intercalate ",")
  | .sequence kind _ => .error (unusableKey (Value.sequence kind []).className)
  | .dict _ => .error (unusableKey "dict")
  | .member _ _ _ value => keyText value
  | .record kind cls fields => .ok (Value.record kind cls fields).text
  | v => match leafData v with
    | .ok (.str s) => .ok s
    | .ok _ => .error .unserializable
    | .error e => .error e

def keyTexts : List Value → Except EncodeFault (List String)
  | [] => .ok []
  | v :: rest => do
    let s ← keyText v
    let more ← keyTexts rest
    pure (s :: more)

def fieldKeyTexts : List (String × Value) → Except EncodeFault (List String)
  | [] => .ok []
  | (_, v) :: rest => do
    let s ← keyText v
    let more ← fieldKeyTexts rest
    pure (s :: more)

end

/-- The ways to encode a value. -/
structure Dumper where
  value : Value
  /-- By what it is. -/
  inferred : Encoded
  /-- By a declared type, as far as it fits. -/
  declared : TypeExpr → Encoded
  /-- As the name of a member, by the type declared for names. -/
  named : TypeExpr → Except EncodeFault String
  /-- Whether it and all its parts are of the classes that the type names, or at least `near` them:
  of classes that extend these. -/
  fits : Bool → TypeExpr → Bool

/-- A value with the dumpers of its parts. -/
structure Dumpable where
  value : Value
  inferred : Encoded
  items : List Dumper := []
  entries : List (Dumper × Dumper) := []
  fields : List (String × Dumper) := []

/-- All results, or the first fault. -/
def sequence {ε α : Type} : List (Except ε α) → Except ε (List α)
  | [] => .ok []
  | .error e :: _ => .error e
  | .ok a :: rest => match sequence rest with
    | .ok as => .ok (a :: as)
    | .error e => .error e

def arrayOf (results : List Encoded) : Encoded := (sequence results).map .array

/-- Names and data of members, a name that comes again replacing the data. -/
def objectOf (members : List (Except EncodeFault String × Encoded)) : Encoded :=
  (sequence (members.map fun m => do
    let k ← m.1
    let j ← m.2
    pure (k, j))).map fun ms => .object (Json.settleEntries ms)

def recordOf (fields : List (String × Encoded)) : Encoded :=
  (sequence (fields.map fun f => f.2.map fun j => (f.1, j))).map .object

def typeOf? (fields : List FieldDef) (name : String) : Option TypeExpr :=
  (fields.find? (·.name == name)).map (·.type)

/-- The fields that a class declares, by their types. -/
def declaredFields (defs : List FieldDef) (fields : List (String × Dumper)) :
    List (String × Encoded) :=
  fields.filterMap fun f => (typeOf? defs f.1).map fun T => (f.1, f.2.declared T)

def fitsPrimitive (near : Bool) (p : Primitive) (v : Value) : Bool :=
  match p, v with
  | .int, .int _ | .float, .float _ | .str, .str _ | .bool, .bool _ | .bytes, .octets .fixed _
  | .date, .date _ | .clock, .clock _ | .instant, .instant _ | .uuid, .uuid _
  | .decimal, .decimal _ | .list, .sequence .list _ | .dict, .dict _ | .tuple, .sequence .tuple _
  | .tuple, .record .tuple .. | .set, .sequence .set _ | .noneType, .none => true
  | .int, .bool _ | .int, .member .integer .. | .str, .member .text .. => near
  | _, _ => false

/-- Named tuples are tuples, too. -/
def isTuple : Value → Bool
  | .sequence .tuple _ | .record .tuple .. => true
  | _ => false

/-- Every field that is declared is there, and of its type. -/
def fitsFields (near : Bool) (defs : List FieldDef) (fields : List (String × Dumper)) : Bool :=
  defs.all (fun d => fields.any fun f => f.1 == d.name) &&
    fields.all fun f => match typeOf? defs f.1 with
      | some T => f.2.fits near T
      | none => near

/-- Nothing is known about the type of a named tuple, so that every value fits. -/
def fitsNamed (Γ : Classes) (near : Bool) (cls : String) (s : Dumpable) : Bool :=
  match Γ.body? cls, s.value with
  | some (.model defs _), .record .model c _ | some (.data defs), .record .data c _ =>
    (c == cls || near && Γ.isSubclass c cls) && fitsFields near defs s.fields
  | some (.enumeration ..), .member _ c .. => c == cls
  | some (.namedTuple _), _ => true
  | _, _ => false

mutual

def fitsAs (Γ : Classes) (near : Bool) (s : Dumpable) : TypeExpr → Bool
  | .any | .descriptor _ => true
  | .none => fitsPrimitive near .noneType s.value
  | .primitive p => fitsPrimitive near p s.value
  | .list _ T => match s.value with
    | .sequence .list _ => s.items.all (·.fits near T)
    | _ => false
  | .set T => match s.value with
    | .sequence .set _ => s.items.all (·.fits near T)
    | _ => false
  | .frozenSet T => match s.value with
    | .sequence .frozenSet _ => s.items.all (·.fits near T)
    | _ => false
  | .tupleOf T => isTuple s.value && s.items.all (·.fits near T)
  | .tuple Ts => isTuple s.value && s.items.length == Ts.length &&
    (s.items.zip Ts).all fun p => p.1.fits near p.2
  | .dict _ K T => match s.value with
    | .dict _ => s.entries.all fun e => e.1.fits true K && e.2.fits near T
    | _ => false
  | .named cls => fitsNamed Γ near cls s
  | .literal values => values.any (TypeExpr.sameLiteral s.value)
  | .annotated T _ => fitsAs Γ near s T
  | .union _ Ts => fitsSome Γ near s Ts

def fitsSome (Γ : Classes) (near : Bool) (s : Dumpable) : List TypeExpr → Bool
  | [] => false
  | T :: Ts => fitsAs Γ near s T || fitsSome Γ near s Ts

end

mutual

/-- The type by which a value is written: without metadata, and of a union the only member besides
the null type, or the first that the value fits. -/
def typeFor (Γ : Classes) (s : Dumpable) : TypeExpr → TypeExpr
  | .annotated T _ => typeFor Γ s T
  | .union _ Ts =>
    if (Ts.filter fun T => !T.isNull).length = 1 then
      (typeForFirst Γ s (fun T => !T.isNull) Ts).getD .any
    else match typeForFirst Γ s (fitsAs Γ false s) Ts with
      | some T => T
      | none => (typeForFirst Γ s (fitsAs Γ true s) Ts).getD .any
  | T => T

def typeForFirst (Γ : Classes) (s : Dumpable) (p : TypeExpr → Bool) :
    List TypeExpr → Option TypeExpr
  | [] => none
  | T :: Ts => if p T then some (typeFor Γ s T) else typeForFirst Γ s p Ts

end

/-- A value of a class, as an instance of the class that was declared. -/
def dumpNamed (Γ : Classes) (cls : String) (s : Dumpable) : Encoded :=
  match Γ.body? cls, s.value with
  | some (.model defs _), .record .model .. => recordOf (declaredFields defs s.fields)
  | some (.data defs), .record .data c _ =>
    if Γ.isSubclass c cls then recordOf (declaredFields defs s.fields) else s.inferred
  | _, _ => s.inferred

/-- A value by a type that is no union. What does not fit the type is encoded by what it is. -/
def dumpBy (Γ : Classes) (s : Dumpable) : TypeExpr → Encoded
  | .primitive .float => match s.value with
    | .float x => .ok (.float x)
    | _ => s.inferred
  | .primitive .int => match s.value with
    | .bool b => .ok (.int (if b then 1 else 0))
    | _ => s.inferred
  | .list _ T => match s.value with
    | .sequence .list _ => arrayOf (s.items.map (·.declared T))
    | _ => s.inferred
  | .set T => match s.value with
    | .sequence .set _ => arrayOf (s.items.map (·.declared T))
    | _ => s.inferred
  | .frozenSet T => match s.value with
    | .sequence .frozenSet _ => arrayOf (s.items.map (·.declared T))
    | _ => s.inferred
  | .tupleOf T =>
    if isTuple s.value then arrayOf (s.items.map (·.declared T)) else s.inferred
  | .tuple Ts =>
    if isTuple s.value && s.items.length == Ts.length then
      arrayOf (s.items.zipWith (·.declared ·) Ts)
    else s.inferred
  | .dict _ K T => match s.value with
    | .dict _ => objectOf (s.entries.map fun e => (e.1.named K, e.2.declared T))
    | _ => s.inferred
  | .named cls => dumpNamed Γ cls s
  | _ => s.inferred

def joined (texts : List (Except EncodeFault String)) : Except EncodeFault String :=
  (sequence texts).map (String.intercalate ",")

/-- The name of a member by a type that is no union. -/
def nameBy (s : Dumpable) : TypeExpr → Except EncodeFault String
  | .primitive .float => match s.value with
    | .float x => .ok x.text
    | v => keyText v
  | .primitive .int => match s.value with
    | .bool b => .ok (Value.bool b).text
    | v => keyText v
  | .tupleOf T =>
    if isTuple s.value then joined (s.items.map (·.named T)) else keyText s.value
  | .tuple Ts =>
    if isTuple s.value && s.items.length == Ts.length then
      joined (s.items.zipWith (·.named ·) Ts)
    else keyText s.value
  | _ => keyText s.value

def Dumpable.dumper (Γ : Classes) (s : Dumpable) : Dumper where
  value := s.value
  inferred := s.inferred
  declared T := dumpBy Γ s (typeFor Γ s T)
  named K := nameBy s (typeFor Γ s K)
  fits near := fitsAs Γ near s

/-- Items of containers that are written as arrays. -/
def inferredItems (kind : SequenceKind) (items : List Dumper) : Encoded :=
  match kind with
  | .queue => .error .unserializable
  | _ => arrayOf (items.map (·.inferred))

/-- The fields by whose types a record dumps itself. -/
def ownFields? (Γ : Classes) (kind : RecordKind) (cls : String) : Option (List FieldDef) :=
  match kind, Γ.body? cls with
  | .model, some (.model defs _) => some defs
  | .data, some (.data defs) => if Γ.dumpsItself cls then some defs else none
  | _, _ => none

/-- Fields of records that dump themselves by the types their own class declares, of others by what
they are. -/
def inferredRecord (Γ : Classes) (kind : RecordKind) (cls : String)
    (fields : List (String × Dumper)) : Encoded :=
  match kind, ownFields? Γ kind cls with
  | .tuple, _ => arrayOf (fields.map (·.2.inferred))
  | _, some defs => recordOf (declaredFields defs fields)
  | _, none => recordOf (fields.map fun f => (f.1, f.2.inferred))

mutual

def dumper (Γ : Classes) : Value → Dumper
  | .sequence kind items =>
    let ds := dumpers Γ items
    Dumpable.dumper Γ
      { value := .sequence kind items, inferred := inferredItems kind ds, items := ds }
  | .dict entries =>
    let ds := entryDumpers Γ entries
    Dumpable.dumper Γ
      { value := .dict entries,
        inferred := objectOf (ds.map fun e => (keyText e.1.value, e.2.inferred)), entries := ds }
  | .record kind cls fields =>
    let ds := fieldDumpers Γ fields
    Dumpable.dumper Γ
      { value := .record kind cls fields, inferred := inferredRecord Γ kind cls ds,
        items := ds.map (·.2), fields := ds }
  | .member mixin cls name value =>
    Dumpable.dumper Γ
      { value := .member mixin cls name value, inferred := (dumper Γ value).inferred }
  | v => Dumpable.dumper Γ { value := v, inferred := leafData v }

def dumpers (Γ : Classes) : List Value → List Dumper
  | [] => []
  | v :: rest => dumper Γ v :: dumpers Γ rest

def entryDumpers (Γ : Classes) : List (Value × Value) → List (Dumper × Dumper)
  | [] => []
  | (k, v) :: rest => (dumper Γ k, dumper Γ v) :: entryDumpers Γ rest

def fieldDumpers (Γ : Classes) : List (String × Value) → List (String × Dumper)
  | [] => []
  | (n, v) :: rest => (n, dumper Γ v) :: fieldDumpers Γ rest

end

/-- The plain data of a model and all in it. -/
def dump (Γ : Classes) (v : Value) : Encoded := (dumper Γ v).inferred

mutual

/-- The data of a field of which nothing is declared: what each part is decides how it is written,
and models and their like in it dump themselves. -/
def infer (Γ : Catalog) : Value → Encoded
  | .sequence .queue _ => .error .unserializable
  | .sequence _ items => arrayOf (inferItems Γ items)
  | .dict entries => objectOf (inferEntries Γ entries)
  | .record .model cls fields => Γ.serialize cls fields
  | .record .data cls fields =>
    if Γ.dumpsItself cls then Γ.serialize cls fields else recordOf (inferFields Γ fields)
  | .record .tuple _ fields => arrayOf ((inferFields Γ fields).map (·.2))
  | .member _ _ _ value => infer Γ value
  | v => leafData v

def inferItems (Γ : Catalog) : List Value → List Encoded
  | [] => []
  | v :: rest => infer Γ v :: inferItems Γ rest

def inferEntries (Γ : Catalog) :
    List (Value × Value) → List (Except EncodeFault String × Encoded)
  | [] => []
  | (k, v) :: rest => (keyText k, infer Γ v) :: inferEntries Γ rest

def inferFields (Γ : Catalog) : List (String × Value) → List (String × Encoded)
  | [] => []
  | (n, v) :: rest => (n, infer Γ v) :: inferFields Γ rest

end

end WorkflowClient.Payload
