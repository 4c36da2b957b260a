import WorkflowClient.Payload.Dump

/-! Values as plain data, and the data as it is written: containers part by part, models as they dump
themselves. -/
namespace WorkflowClient
namespace Payload

/-- The name of a member for a key: the text that shows it. -/
def nameOf (key : Value) : Except EncodeFault String :=
  if key.writable then .ok key.text else .error .integerTooLong

/-- The data of values without parts. -/
def leafJson : Value → Encoded
  | .none => .ok .null
  | .bool b => .ok (.bool b)
  | .int n => .ok (.int n)
  | .float x => .ok (.float x)
  | .str s => .ok (.str s)
  | .octets .view data => .ok (.array (data.map fun b => .int b.toNat))
  | .range start stop => .ok (.array ((List.range (stop - start).toNat).map
      fun (k : Nat) => .int (start + (k : Int))))
  | .date d => .ok (.str (String.ofList d.chars))
  | .clock c => .ok (.str (String.ofList c.chars))
  | .instant t => .ok (.str (String.ofList t.chars))
  | .uuid u => .ok (.str u.text)
  | .decimal d => .ok (.str d.text)
  | v => .error (.unsupported v.className)

/-- What is raised for a field that a record of the class should have, and has not. -/
def noField (cls name : String) : EncodeFault :=
  .raised ⟨"AttributeError",
    Text.quoted cls ++ " object has no attribute " ++ Text.quoted name⟩

/-- The field of that name, or the fault of it. -/
def pickField (cls : String) (fields : List (String × Except EncodeFault Value)) (name : String) :
    Except EncodeFault (String × Value) :=
  match fields.lookup name with
  | none => .error (noField cls name)
  | some r => r.map fun w => (name, w)

def objectValue (members : List (String × Value)) : Value :=
  .dict (members.map fun m => (.str m.1, m.2))

/-- An object with those members, a name that comes again replacing the value. -/
def settledObject (members : List (String × Value)) : Value :=
  objectValue (Json.settleEntries members)

mutual

/-- A value as plain data, or the fault of the first part from the left that has none. A member of an
enumeration that is a text or a number besides is handed out as its value, whatever that is. -/
def jsonable (Γ : Catalog) : Value → Except EncodeFault Value
  | .sequence _ items => (jsonables Γ items).map (.sequence .list)
  | .dict entries => (jsonableEntries Γ entries).map settledObject
  | .record .model cls fields => (Γ.serialize cls fields).map .ofJson
  | .record .data cls fields =>
    let names := Γ.fieldNames cls (fields.map (·.1))
    (Payload.sequence (names.map (pickField cls (jsonableFields Γ fields)))).map settledObject
  | .record .tuple _ fields =>
    (Payload.sequence ((jsonableFields Γ fields).map (·.2))).map (.sequence .list)
  | .member .plain _ _ value => jsonable Γ value
  | .member _ _ _ value => .ok value
  | v => (leafJson v).map .ofJson

def jsonables (Γ : Catalog) : List Value → Except EncodeFault (List Value)
  | [] => .ok []
  | v :: rest => match jsonable Γ v with
    | .error e => .error e
    | .ok w => match jsonables Γ rest with
      | .error e => .error e
      | .ok ws => .ok (w :: ws)

def jsonableEntries (Γ : Catalog) :
    List (Value × Value) → Except EncodeFault (List (String × Value))
  | [] => .ok []
  | (k, v) :: rest => match nameOf k with
    | .error e => .error e
    | .ok name => match jsonable Γ v with
      | .error e => .error e
      | .ok w => match jsonableEntries Γ rest with
        | .error e => .error e
        | .ok members => .ok ((name, w) :: members)

def jsonableFields (Γ : Catalog) :
    List (String × Value) → List (String × Except EncodeFault Value)
  | [] => []
  | (n, v) :: rest => (n, jsonable Γ v) :: jsonableFields Γ rest

end

/-- What is raised where a text is to be written of anything but plain data. -/
def notPlain (className : String) : EncodeFault :=
  .raised ⟨"TypeError", "Object of type " ++ className ++ " is not JSON serializable"⟩

def wrongKey (className : String) : EncodeFault :=
  .raised ⟨"TypeError", "keys must be str, int, float, bool or None, not " ++ className⟩

def dataOfInt (n : Int) : Except EncodeFault Int :=
  if Number.writable n then .ok n else .error .integerTooLong

/-- The name of a member of plain data. -/
def keyName : Value → Except EncodeFault String
  | .none => .ok "null"
  | .bool b => .ok (if b then "true" else "false")
  | .int n | .member .integer _ _ (.int n) =>
    (dataOfInt n).map fun n => String.ofList (Number.intText n)
  | .float x => if x.isFinite then .ok x.text else .error .unserializable
  | .str s | .member .text _ _ (.str s) => .ok s
  | key => .error (wrongKey key.className)

mutual

/-- What stands in the text of plain data, or the fault of the first part from the left that has no
text. Tuples stand there as arrays, and members of enumerations as the texts or numbers that they
are. -/
def dataOf : Value → Encoded
  | .none => .ok .null
  | .bool b => .ok (.bool b)
  | .int n | .member .integer _ _ (.int n) => (dataOfInt n).map .int
  | .float x => if x.isFinite then .ok (.float x) else .error .unserializable
  | .str s | .member .text _ _ (.str s) => .ok (.str s)
  | .sequence .list items | .sequence .tuple items => (dataOfItems items).map .array
  | .record .tuple _ fields => (dataOfFields fields).map .array
  | .dict entries => (dataOfEntries entries).map .object
  | v => .error (notPlain v.className)

def dataOfItems : List Value → Except EncodeFault (List Json)
  | [] => .ok []
  | v :: rest => match dataOf v with
    | .error e => .error e
    | .ok j => (dataOfItems rest).map (j :: ·)

def dataOfFields : List (String × Value) → Except EncodeFault (List Json)
  | [] => .ok []
  | (_, v) :: rest => match dataOf v with
    | .error e => .error e
    | .ok j => (dataOfFields rest).map (j :: ·)

def dataOfEntries : List (Value × Value) → Except EncodeFault (List (String × Json))
  | [] => .ok []
  | (k, v) :: rest => match keyName k with
    | .error e => .error e
    | .ok name => match dataOf v with
      | .error e => .error e
      | .ok j => (dataOfEntries rest).map ((name, j) :: ·)

end
end Payload
end WorkflowClient
