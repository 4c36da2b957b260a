import WorkflowClient.Validation.Temporal
import WorkflowClient.Validation.Union

/-! Values against types. The recursion is on the value: each part becomes the function that
answers any type for it, and the type of the whole says what the parts are asked. -/
namespace WorkflowClient
namespace Value

mutual

/-- Data whose objects repeat no name. -/
def settled : Value → Value
  | .sequence kind items => .sequence kind (settledItems items)
  | .dict entries => .dict (Json.settleEntries (settledEntries entries))
  | v => v

def settledItems : List Value → List Value
  | [] => []
  | v :: rest => v.settled :: settledItems rest

def settledEntries : List (Value × Value) → List (Value × Value)
  | [] => []
  | (k, v) :: rest => (k, v.settled) :: settledEntries rest

end
end Value

namespace Validation

/-- What a value answers to each type. -/
abbrev Answer := TypeExpr → Outcome

/-- A value with the answers of its parts. -/
structure Subject where
  value : Value
  items : List Answer := []
  /-- Keys as they are, and the answers of keys and values. -/
  entries : List (Value × Answer × Answer) := []

def ofScalar {α : Type} (f : α → Value) (r : Scalar α) : Outcome :=
  match r with
  | .ok (a, e) => .ok ⟨f a, ⟨e, none⟩⟩
  | .error k => fault k

def checkNothing (v : Value) : Outcome := ofScalar (fun _ => .none) (checkNull v)

def checkPrimitive (m : Mode) (v : Value) : Primitive → Outcome
  | .int => ofScalar .int (checkInt m v)
  | .float => ofScalar .float (checkFloat m v)
  | .str => ofScalar .str (checkStr m v)
  | .bool => ofScalar .bool (checkBool m v)
  | .bytes => ofScalar (.octets .fixed) (checkBytes m v)
  | .date => ofScalar .date (checkDate m v)
  | .instant => ofScalar .instant (checkInstant m v)
  | .clock => ofScalar .clock (checkClock m v)
  | .uuid => ofScalar .uuid (checkUuid m v)
  | .decimal => ofScalar .decimal (checkDecimal m v)
  | .list | .dict | .tuple | .set | .noneType => checkNothing v

/-- Anything goes, but a type that fits exactly fits better. -/
def checkAny (m : Mode) (v : Value) : Outcome :=
  .ok ⟨if m = .data then v.settled else v, ⟨.strict, none⟩⟩

def standingOf (start : Standing) (parts : List Accepted) : Standing :=
  parts.foldl (fun s a => s.combine a.standing) start

/-- A container's items: which kinds of value have them, and how well the value matched. -/
def itemsOf (m : Mode) (kind : SequenceKind) (v : Value) : Option Exactness :=
  match v with
  | .sequence k _ =>
    if k = kind then some .exact
    else if m = .lax then some .lax
    else if m = .data ∧ k = .list then some .strict
    else none
  | .record .tuple _ _ =>
    if kind = .tuple then some .strict else if m = .lax then some .lax else none
  | .range .. | .octets .view _ => if m = .lax then some .lax else none
  | _ => none

def kindFault : SequenceKind → FaultKind
  | .set => .setType
  | .frozenSet => .frozenSetType
  | .tuple => .tupleType
  | _ => .listType

/-- Indices of the items that cannot be in a set. -/
def unhashable (Γ : Catalog) (start : Nat) : List Accepted → List Fault
  | [] => []
  | a :: rest =>
    let more := unhashable Γ (start + 1) rest
    if a.value.hashable Γ.isFrozen then more else ⟨.itemNotHashable, [.index start]⟩ :: more

/-- A container of the kind, made of items that were accepted. -/
def container (Γ : Catalog) (kind : SequenceKind) (e : Exactness) (parts : List Accepted) :
    Outcome :=
  let standing := standingOf ⟨e, none⟩ parts
  let values := parts.map (·.value)
  match kind with
  | .set | .frozenSet => match unhashable Γ 0 parts with
    | [] => .ok ⟨.sequence kind (Value.distinct values), standing⟩
    | fs => .error fs
  | _ => .ok ⟨.sequence kind values, standing⟩

/-- Items that all have one type. -/
def checkItems (Γ : Catalog) (m : Mode) (kind : SequenceKind) (s : Subject) (T : TypeExpr) :
    Outcome :=
  match itemsOf m kind s.value with
  | none => fault (kindFault kind)
  | some e => (collectIndexed 0 (s.items.map (· T))).bind (container Γ kind e)

/-- Each item by its own type. Types without an item are missing, items without a type too many. -/
def zipItems : List Answer → List TypeExpr → List Outcome
  | answer :: more, T :: rest => answer T :: zipItems more rest
  | [], _ :: rest => fault .missing :: zipItems [] rest
  | _, [] => []

def checkTuple (Γ : Catalog) (m : Mode) (s : Subject) (Ts : List TypeExpr) : Outcome :=
  match itemsOf m .tuple s.value with
  | none => fault .tupleType
  | some e =>
    if Ts.length < s.items.length then fault .tooLong
    else (collectIndexed 0 (zipItems s.items Ts)).bind (container Γ .tuple e)

/-- A key as a step of a path. -/
def keyStep (key : Value) : Step :=
  match key.text? with
  | some s => .name s
  | none => match key with
    | .int n => .index n
    | v => .name v.quoted

def checkEntry (K T : TypeExpr) (e : Value × Answer × Answer) : Checked (Accepted × Accepted) :=
  let step := keyStep e.1
  both Prod.mk (Checked.below step (Checked.below (.name "[key]") (e.2.1 K)))
    (Checked.below step (e.2.2 T))

def checkDict (s : Subject) (K T : TypeExpr) : Outcome :=
  match s.value with
  | .dict _ =>
    (collect (s.entries.map (checkEntry K T))).map fun pairs =>
      ⟨.dict (Json.settleEntries (pairs.map fun p => (p.1.value, p.2.value))),
        standingOf (standingOf .exact (pairs.map (·.1))) (pairs.map (·.2))⟩
  | _ => fault .dictType

/-- The member that a value names: in strict mode the value itself. -/
def checkMember (m : Mode) (v : Value) (cls : String) (mixin : Mixin)
    (members : List (String × Value)) : Outcome :=
  let ofClass := match v with
    | .member _ c _ _ => c == cls
    | _ => false
  if ofClass then .ok ⟨v, .exact⟩
  else if m = .strict then fault .instanceOf
  else
    let key : Option Value := match mixin with
      | .plain => some v
      | .text => match checkStr m v with
        | .ok (s, _) => some (.str s)
        | .error _ => none
      | .integer => match checkInt m v with
        | .ok (n, _) => some (.int n)
        | .error _ => none
    match key.bind fun k => members.find? fun d => k == d.2 with
    | some d => .ok ⟨.member mixin cls d.1 d.2, ⟨.lax, none⟩⟩
    | none => fault .enumeration

/-- The declared value that a value stands for: one of its class before one that is only equal, and
a member of an enumeration also by its own value. -/
def checkLiteral (v : Value) (values : List Value) : Outcome :=
  let equal (w : Value) : Bool := v == w || (match w with
    | .member _ _ _ inner => v == inner
    | _ => false)
  match (values.find? (TypeExpr.sameLiteral v)).orElse fun _ => values.find? equal with
  | some w => .ok ⟨w, .exact⟩
  | none => fault .literal

/-- The last entry under a name. -/
def entry? (entries : List (Value × Answer × Answer)) (name : String) : Option Answer :=
  (entries.reverse.find? fun e => e.1.text? == some name).map (·.2.2)

/-- A field's value: what is given under its name, or else its default. The flag tells which. -/
def checkField (entries : List (Value × Answer × Answer)) (f : FieldDef) :
    Checked (String × Accepted × Bool) :=
  match entry? entries f.given with
  | some answer => Checked.below (.name f.given) ((answer f.type).map fun a => (f.name, a, true))
  | none => match f.default with
    | some d => .ok (f.name, ⟨d, .exact⟩, false)
    | none => fault .missing [.name f.given]

/-- Faults of the entries that name no field. -/
def extraFaults (fields : List FieldDef) : List (Value × Answer × Answer) → List Fault
  | [] => []
  | e :: rest => match e.1.text? with
    | some s =>
      if fields.any (·.given == s) then extraFaults fields rest
      else ⟨.extraForbidden, [.name s]⟩ :: extraFaults fields rest
    | none => ⟨.keyNotText, [keyStep e.1]⟩ :: extraFaults fields rest

def noExtras (extras : Extras) (fields : List FieldDef) (entries : List (Value × Answer × Answer)) :
    Checked Unit :=
  match extras with
  | .ignored => .ok ()
  | .forbidden => match extraFaults fields entries with
    | [] => .ok ()
    | fs => .error fs

/-- A record made of fields that were accepted; building it costs exactness. -/
def recordFrom (kind : RecordKind) (cls : String) (e : Exactness)
    (fields : List (String × Accepted × Bool)) : Accepted :=
  let given := fields.filter (·.2.2)
  ⟨.record kind cls (fields.map fun f => (f.1, f.2.1.value)),
    (standingOf ⟨e, none⟩ (given.map (·.2.1))).addFields given.length⟩

def checkRecord (kind : RecordKind) (cls : String) (e : Exactness) (extras : Extras)
    (fields : List FieldDef) (entries : List (Value × Answer × Answer)) : Outcome :=
  both (fun fs _ => recordFrom kind cls e fs) (collect (fields.map (checkField entries)))
    (noExtras extras fields entries)

/-- Whether the value is an instance of the class, or of one that extends it. -/
def isInstance (Γ : Catalog) (kind : RecordKind) (cls : String) (v : Value) : Bool :=
  match v with
  | .record k c _ => k = kind && Γ.isSubclass c cls
  | _ => false

def isTuple (v : Value) : Bool :=
  match v with
  | .sequence .tuple _ | .range .. => true
  | .record .tuple _ _ => true
  | _ => false

/-- A named tuple from items in order. -/
def checkPositions (cls : String) (fields : List FieldDef) (items : List Answer) : Outcome :=
  if fields.length < items.length then fault .tooLong
  else (collectIndexed 0 (zipItems items (fields.map (·.type)))).map fun parts =>
    ⟨.record .tuple cls ((fields.map (·.name)).zip (parts.map (·.value))),
      standingOf .exact parts⟩

def checkNamedTuple (m : Mode) (cls : String) (fields : List FieldDef) (s : Subject) : Outcome :=
  let fromItems : Bool := match s.value with
    | .sequence .list _ => decide (m ≠ .strict)
    | v => isTuple v
  if fromItems then checkPositions cls fields s.items
  else match s.value with
    | .dict _ =>
      if m = .strict then fault .namedTupleType
      else both (fun fs _ => recordFrom .tuple cls .exact fs)
        (collect (fields.map (checkField s.entries)))
        (match extraFaults fields s.entries with
          | [] => .ok ()
          | fs => .error (fs.map fun f => { f with kind := .unknownArgument }))
    | _ => fault .namedTupleType

def checkNamed (Γ : Catalog) (m : Mode) (s : Subject) (cls : String) : Outcome :=
  match Γ.body? cls with
  | some (.model fields extras) =>
    if isInstance Γ .model cls s.value then .ok ⟨s.value, .exact⟩
    else match s.value with
      | .dict _ => checkRecord .model cls .lax extras fields s.entries
      | _ => fault .modelType
  | some (.data fields) =>
    if isInstance Γ .data cls s.value then .ok ⟨s.value, .exact⟩
    else match s.value with
      | .dict _ =>
        if m = .strict then fault .dataType
        else checkRecord .data cls .strict .ignored fields s.entries
      | _ => fault .dataType
  | some (.namedTuple fields) => checkNamedTuple m cls fields s
  | some (.enumeration mixin members) => checkMember m s.value cls mixin members
  | some .plain | none => fault .instanceOf

mutual

/-- A value with answering parts against a type. -/
def check (Γ : Catalog) (m : Mode) (s : Subject) : TypeExpr → Outcome
  | .any => checkAny m s.value
  | .none => checkNothing s.value
  | .primitive .list => checkItems Γ m .list s .any
  | .primitive .set => checkItems Γ m .set s .any
  | .primitive .tuple => checkItems Γ m .tuple s .any
  | .primitive .dict => checkDict s .any .any
  | .primitive p => checkPrimitive m s.value p
  | .named cls => checkNamed Γ m s cls
  | .list _ T => checkItems Γ m .list s T
  | .set T => checkItems Γ m .set s T
  | .frozenSet T => checkItems Γ m .frozenSet s T
  | .tupleOf T => checkItems Γ m .tuple s T
  | .tuple Ts => checkTuple Γ m s Ts
  | .dict _ K T => checkDict s K T
  | .literal values => checkLiteral s.value values
  | .annotated T _ => check Γ m s T
  | .descriptor T => check Γ m s T
  | .union _ Ts =>
    let null := match s.value with
      | .none => Ts.any (·.isNull)
      | _ => false
    if null then .ok ⟨.none, .exact⟩
    else match checkMembers Γ m s Ts with
      | [(_, r)] => r
      | outcomes => chooseMember outcomes

/-- The outcomes of a union's members other than the null type, under their names. -/
def checkMembers (Γ : Catalog) (m : Mode) (s : Subject) : List TypeExpr → List (String × Outcome)
  | [] => []
  | T :: rest =>
    if T.isNull then checkMembers Γ m s rest
    else (label Γ T, check Γ m s T) :: checkMembers Γ m s rest

end

mutual

/-- What a value answers to a type. -/
def answer (Γ : Catalog) (m : Mode) : Value → Answer
  | .sequence kind items =>
    check Γ m { value := .sequence kind items, items := answers Γ m items }
  | .dict entries =>
    check Γ m { value := .dict entries, entries := entryAnswers Γ m entries }
  | .record kind cls fields =>
    check Γ m { value := .record kind cls fields, items := fieldAnswers Γ m fields }
  | .range start stop =>
    check Γ m { value := .range start stop,
                items := (Value.rangeItems start stop).map fun v => check Γ m { value := v } }
  | .octets kind data =>
    check Γ m { value := .octets kind data,
                items := (Value.octetItems data).map fun v => check Γ m { value := v } }
  | v => check Γ m { value := v }

def answers (Γ : Catalog) (m : Mode) : List Value → List Answer
  | [] => []
  | v :: rest => answer Γ m v :: answers Γ m rest

def entryAnswers (Γ : Catalog) (m : Mode) :
    List (Value × Value) → List (Value × Answer × Answer)
  | [] => []
  | (k, v) :: rest => (k, answer Γ m k, answer Γ m v) :: entryAnswers Γ m rest

def fieldAnswers (Γ : Catalog) (m : Mode) : List (String × Value) → List Answer
  | [] => []
  | (_, v) :: rest => answer Γ m v :: fieldAnswers Γ m rest

end

/-- A value against a type: the converted value, or every fault. -/
def validate (Γ : Catalog) (m : Mode) (v : Value) (T : TypeExpr) : Checked Value :=
  (answer Γ m v T).map (·.value)

/-- Why a value is not of a type: its faults, or what a check of the application raised. -/
inductive Refusal
  | faults (fs : List Fault)
  | raised (e : Raised)
deriving DecidableEq

/-- A value against a type, by the checks of the application as well. -/
def examine (Γ : Catalog) (m : Mode) (v : Value) (T : TypeExpr) : Except Refusal Value :=
  match Γ.raised? m T v with
  | some e => .error (.raised e)
  | none => (validate Γ m v T).mapError .faults

/-! Records built by the application itself, from fields given by name. -/

/-- The fields in the order of their declaration: as given, or else by default. A field that is
neither given nor has a default is left out. -/
def fill (defs : List FieldDef) (given : List (String × Value)) : List (String × Value) :=
  defs.filterMap fun f =>
    match (Value.field? given f.given).orElse fun _ => Value.field? given f.name with
    | some v => some (f.name, v)
    | none => f.default.map fun d => (f.name, d)

/-- A record of fields that nobody has checked. -/
def assemble (Γ : Catalog) (cls : String) (given : List (String × Value)) : Value :=
  match Γ.body? cls with
  | some (.model defs _) => .record .model cls (fill defs given)
  | some (.data defs) => .record .data cls (fill defs given)
  | some (.namedTuple defs) => .record .tuple cls (fill defs given)
  | _ => .instance cls

/-- A record as its class builds it: models check what they are given, others do not. -/
def build (Γ : Catalog) (cls : String) (given : List (String × Value)) : Checked Value :=
  match Γ.body? cls with
  | some (.model ..) =>
    validate Γ .lax (.dict (given.map fun f => (.str f.1, f.2))) (.named cls)
  | _ => .ok (assemble Γ cls given)

end Validation
end WorkflowClient
