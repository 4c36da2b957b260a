import WorkflowClient.TypeExpr.Name
import WorkflowClient.Validation.Check

/-! Descriptors: types that are ready to check values. The store keeps the one made first for each
type, and gives it back for every equal one. -/
namespace WorkflowClient

/-- A descriptor is told apart from equal ones by its number. -/
structure Descriptor where
  id : Nat
  type : TypeExpr

namespace Descriptor

/-- The descriptor of anything, which is always at hand. -/
def any : Descriptor := ⟨0, .any⟩

def name (d : Descriptor) : String := d.type.name

def text (d : Descriptor) : String := "TypeDescriptor(" ++ d.name ++ ")"

/-- Descriptors are equal when their types are. -/
def equals (d e : Descriptor) : Bool := d.type == e.type

instance : BEq Descriptor := ⟨equals⟩

def same (d e : Descriptor) : Bool := d.id == e.id

/-- Whether a value is of the type as it stands, or what a check of the application raises. -/
def accepts (Γ : Catalog) (d : Descriptor) (v : Value) : Except Raised Bool :=
  match d.type with
  | .any => .ok true
  | T => match Validation.examine Γ .strict v T with
    | .ok _ => .ok true
    | .error (.faults _) => .ok false
    | .error (.raised e) => .error e

/-- What comparing two descriptors says, unless it raises because their types cannot be compared. -/
def compare? (Γ : Catalog) (d e : Descriptor) : Option Bool :=
  if d.type.comparable Γ.isFrozen e.type then some (d.equals e) else none

/-- Whether hashing cannot tell two descriptors apart, where `object` says which object in memory
each was made from, by its number. Hashes follow the type; one that cannot be a key is hashed as
the object that it is. -/
def sameHash (Γ : Catalog) (object : Nat → Nat) (d e : Descriptor) : Bool :=
  object d.id == object e.id ||
    (d.type.hashable Γ.isFrozen && e.type.hashable Γ.isFrozen && d.equals e)

end Descriptor

/-- What a caller names as a type. -/
inductive Target
  | type (T : TypeExpr)
  | descriptor (d : Descriptor)

/-- The name under which a target that cannot be checked is reported. -/
def Target.headName : Target → String
  | .type T => T.headName
  | .descriptor d => d.text

/-- The descriptors that are kept, and the number of the next one. -/
structure Descriptors where
  kept : List Descriptor := []
  next : Nat := 1

namespace Descriptors

/-- A new descriptor, if the type can be checked. It is not kept. -/
def make? (Γ : Catalog) (s : Descriptors) (T : TypeExpr) : Option (Descriptor × Descriptors) :=
  if T.checkable Γ then some (⟨s.next, T⟩, { s with next := s.next + 1 }) else none

/-- The descriptor of a target: a descriptor itself, the one of anything, the one that is kept for
an equal type, or a new one, kept if its type can be a key. -/
def of? (Γ : Catalog) (s : Descriptors) : Target → Option (Descriptor × Descriptors)
  | .descriptor d => some (d, s)
  | .type .any => some (.any, s)
  | .type T =>
    if T.hashable Γ.isFrozen then
      match s.kept.find? fun d => d.type == T with
      | some d => some (d, s)
      | none => (s.make? Γ T).map fun r => (r.1, { r.2 with kept := r.2.kept ++ [r.1] })
    else s.make? Γ T

/-- Nothing is kept any more. -/
def clear (s : Descriptors) : Descriptors := { s with kept := [] }

end Descriptors
end WorkflowClient
