import WorkflowClient.Catalog
import WorkflowClient.TypeExpr.Name
import WorkflowClient.Validation.Scalar

/-! The choice among the members of a union, and the names under which members report faults. -/
namespace WorkflowClient.Validation

/-- How well a value matched: exactly or not, and how many fields of records were given. -/
structure Standing where
  exactness : Exactness
  fieldsSet : Option Nat := none
deriving DecidableEq

namespace Standing

def exact : Standing := ⟨.exact, none⟩

/-- No better than `e`. -/
def atMost (s : Standing) (e : Exactness) : Standing :=
  if e.rank < s.exactness.rank then { s with exactness := e } else s

def addFields (s : Standing) (n : Nat) : Standing :=
  { s with fieldsSet := some (s.fieldsSet.getD 0 + n) }

/-- The standing of two parts together. -/
def combine (s t : Standing) : Standing :=
  let u := s.atMost t.exactness
  match t.fieldsSet with
  | some n => u.addFields n
  | none => u

/-- More fields set count first, then exactness. -/
def betterThan (s t : Standing) : Bool :=
  match t.fieldsSet, s.fieldsSet with
  | some old, some new =>
    if old = new then t.exactness.rank < s.exactness.rank else old < new
  | _, _ => t.exactness.rank < s.exactness.rank

end Standing

structure Accepted where
  value : Value
  standing : Standing

abbrev Outcome := Checked Accepted

/-- The best of the outcomes from left to right. An exact match without fields ends the search, and
of equals the leftmost wins. -/
def pickBest (best : Option Accepted) : List Outcome → Option Accepted
  | [] => best
  | .error _ :: rest => pickBest best rest
  | .ok a :: rest =>
    if a.standing = .exact then some a
    else match best with
      | none => pickBest (some a) rest
      | some b => pickBest (some (if a.standing.betterThan b.standing then a else b)) rest

/-- The faults of every member, below the member's name. -/
def unionFaults : List (String × Outcome) → List Fault
  | [] => []
  | (label, r) :: rest => match r.below (.name label) with
    | .error fs => fs ++ unionFaults rest
    | .ok _ => unionFaults rest

def chooseMember (outcomes : List (String × Outcome)) : Outcome :=
  match pickBest none (outcomes.map (·.2)) with
  | some a => .ok a
  | none => .error (unionFaults outcomes)

def primitiveLabel : Primitive → String
  | .uuid => "uuid"
  | .decimal => "decimal"
  | .list => "list[any]"
  | .dict => "dict[any,any]"
  | .tuple => "tuple[any, ...]"
  | .set => "set[any]"
  | .noneType => "none"
  | p => p.name

def classLabel (Γ : Catalog) (cls : String) : String :=
  match Γ.body? cls with
  | some (.enumeration .plain _) => "enum[" ++ cls ++ "]"
  | some (.enumeration .text _) => "str-enum[" ++ cls ++ "]"
  | some (.enumeration .integer _) => "int-enum[" ++ cls ++ "]"
  | _ => cls

mutual

/-- The name of a union's member in the path of a fault. -/
def label (Γ : Catalog) : TypeExpr → String
  | .any => "any"
  | .none => "none"
  | .primitive p => primitiveLabel p
  | .named cls => classLabel Γ cls
  | .list _ T => "list[" ++ label Γ T ++ "]"
  | .set T => "set[" ++ label Γ T ++ "]"
  | .frozenSet T => "frozenset[" ++ label Γ T ++ "]"
  | .dict _ K T => "dict[" ++ label Γ K ++ "," ++ label Γ T ++ "]"
  | .tuple Ts => "tuple[" ++ String.intercalate ", " (labels Γ Ts) ++ "]"
  | .tupleOf T => "tuple[" ++ label Γ T ++ ", ...]"
  | .union _ Ts =>
    let inner := match memberLabels Γ Ts with
      | [l] => l
      | ls => "union[" ++ String.intercalate "," ls ++ "]"
    if Ts.any (·.isNull) then "nullable[" ++ inner ++ "]" else inner
  | .literal vs => "literal[" ++ String.intercalate "," (Value.quotedItems vs) ++ "]"
  | .annotated T _ => label Γ T
  | .descriptor T => label Γ T

def labels (Γ : Catalog) : List TypeExpr → List String
  | [] => []
  | T :: rest => label Γ T :: labels Γ rest

/-- The names of the members other than the null type. -/
def memberLabels (Γ : Catalog) : List TypeExpr → List String
  | [] => []
  | T :: rest => if T.isNull then memberLabels Γ rest else label Γ T :: memberLabels Γ rest

end

end WorkflowClient.Validation
