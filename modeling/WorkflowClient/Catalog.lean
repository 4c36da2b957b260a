import WorkflowClient.TypeExpr.Basic
import WorkflowClient.Validation.Fault

/-! The application's own classes, as far as checking and encoding need them. -/
namespace WorkflowClient

/-- An exception that is none of the client's errors, by its class and its message. -/
structure Raised where
  error : String
  message : String
deriving DecidableEq

namespace Payload

/-- Why a value has no plain data. -/
inductive EncodeFault
  | unsupported (className : String)
  | unserializable
  /-- Octets that are no UTF-8. -/
  | undecodable
  | integerTooLong
  | raised (e : Raised)
deriving DecidableEq

abbrev Encoded := Except EncodeFault Json

end Payload

/-- A field that is given when a record is made, and written with it. -/
structure FieldDef where
  name : String
  type : TypeExpr
  /-- Absent for a field that has to be given. -/
  default : Option Value := none
  /-- The only name accepted in input, if it is not the field's own. -/
  inputName : Option String := none

/-- The name under which input is expected. -/
def FieldDef.given (f : FieldDef) : String := f.inputName.getD f.name

/-- Whether input may have members that name no field. -/
inductive Extras
  | ignored
  | forbidden
deriving DecidableEq

inductive ClassBody
  | model (fields : List FieldDef) (extras : Extras)
  | data (fields : List FieldDef)
  | namedTuple (fields : List FieldDef)
  | enumeration (mixin : Mixin) (members : List (String × Value))
  /-- A class that nothing is known about. -/
  | plain

structure ClassDef where
  name : String
  /-- The classes it extends, nearest first. -/
  bases : List String := []
  body : ClassBody

/-- Classes, told apart by name. `frozen` names the models whose fields cannot be set, `selfDumping`
the data records that dump themselves inside a model, as models do. -/
structure Classes where
  classes : List ClassDef
  frozen : List String := []
  selfDumping : List String := []

namespace Classes

def find? (Γ : Classes) (name : String) : Option ClassDef := Γ.classes.find? (·.name == name)

def body? (Γ : Classes) (name : String) : Option ClassBody := (Γ.find? name).map (·.body)

def isFrozen (Γ : Classes) (name : String) : Bool := Γ.frozen.contains name

def dumpsItself (Γ : Classes) (name : String) : Bool := Γ.selfDumping.contains name

/-- Whether instances of class `sub` are instances of class `cls`. -/
def isSubclass (Γ : Classes) (sub cls : String) : Bool :=
  sub == cls || (match Γ.find? sub with
    | some d => d.bases.contains cls
    | none => false)

/-- The member of an enumeration with that name. -/
def member? (Γ : Classes) (cls name : String) : Option Value :=
  match Γ.body? cls with
  | some (.enumeration mixin members) =>
    (members.find? (·.1 == name)).map fun m => .member mixin cls name m.2
  | _ => none

/-- The names of the fields of a data record, if its class says them; `own` are those it has. -/
def fieldNames (Γ : Classes) (cls : String) (own : List String) : List String :=
  match Γ.body? cls with
  | some (.data fields) => fields.map (·.name)
  | _ => own

/-- Classes whose values can be checked and encoded. -/
def checkable (Γ : Classes) (name : String) : Bool :=
  match Γ.body? name with
  | none | some .plain => false
  | some _ => true

end Classes

/-- Classes with what their own code does: how models dump themselves, and what is raised when a
value is checked against a type, if a check of the application raises anything but a fault. -/
structure Catalog extends Classes where
  serialize : String → List (String × Value) → Payload.Encoded
  raises : Validation.Mode → TypeExpr → Value → Option Raised := fun _ _ _ => none

instance : Coe Catalog Classes := ⟨Catalog.toClasses⟩

/-- The application that declares no class. -/
def Catalog.empty : Catalog where
  classes := []
  serialize _ _ := .ok (.object [])

namespace TypeExpr

mutual

/-- A type can be checked if no class in it is unknown, and no descriptor stands in for a
type. -/
def checkable (Γ : Classes) : TypeExpr → Bool
  | .any | .none | .primitive _ | .literal _ => true
  | .named c => Γ.checkable c
  | .list _ a | .set a | .frozenSet a | .tupleOf a | .annotated a _ => a.checkable Γ
  | .dict _ k v => k.checkable Γ && v.checkable Γ
  | .tuple as | .union _ as => checkableAll Γ as
  | .descriptor _ => false

def checkableAll (Γ : Classes) : List TypeExpr → Bool
  | [] => true
  | a :: as => a.checkable Γ && checkableAll Γ as

end

mutual

/-- Whether a check against the type may run code of the application: that of a class, or what the
type is annotated with. -/
def ownCode : TypeExpr → Bool
  | .any | .none | .primitive _ | .literal _ => false
  | .named _ | .annotated .. => true
  | .list _ a | .set a | .frozenSet a | .tupleOf a | .descriptor a => a.ownCode
  | .dict _ k v => k.ownCode || v.ownCode
  | .tuple as | .union _ as => ownCodeAny as

def ownCodeAny : List TypeExpr → Bool
  | [] => false
  | a :: as => a.ownCode || ownCodeAny as

end
end TypeExpr

/-- What is raised when the value is checked against the type, besides faults. -/
def Catalog.raised? (Γ : Catalog) (m : Validation.Mode) (T : TypeExpr) (v : Value) :
    Option Raised :=
  if T.ownCode then Γ.raises m T v else none

end WorkflowClient
