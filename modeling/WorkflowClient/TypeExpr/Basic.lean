import WorkflowClient.Value.Equality

/-! The type expressions that payloads are checked against. -/
namespace WorkflowClient

/-- Types that are named by one word and known everywhere. -/
inductive Primitive
  | int
  | float
  | str
  | bool
  | bytes
  | date
  | instant
  | clock
  | uuid
  | decimal
  | list
  | dict
  | tuple
  | set
  | noneType
deriving DecidableEq

/-- Lists and dicts can be spelled by the container's own name or in the vocabulary for types;
unions by a bar or in that vocabulary. -/
inductive Spelling
  | native
  | vocabulary
deriving DecidableEq

inductive TypeExpr
  | any
  /-- The value `None` where a type is expected. -/
  | none
  | primitive (p : Primitive)
  | named (cls : String)
  | list (spelling : Spelling) (item : TypeExpr)
  | set (item : TypeExpr)
  | frozenSet (item : TypeExpr)
  | dict (spelling : Spelling) (key value : TypeExpr)
  | tuple (items : List TypeExpr)
  | tupleOf (item : TypeExpr)
  | union (spelling : Spelling) (members : List TypeExpr)
  | literal (values : List Value)
  | annotated (type : TypeExpr) (metadata : List Value)
  /-- A descriptor of another type, used as if it were one. -/
  | descriptor (target : TypeExpr)

namespace TypeExpr

def noneType : TypeExpr := .primitive .noneType

/-- Literals are told apart by class as well as by value. -/
def sameLiteral (v w : Value) : Bool := v.className == w.className && v == w

def sameLiterals (vs ws : List Value) : Bool :=
  vs.all (fun v => ws.any (sameLiteral v)) && ws.all fun w => vs.any (sameLiteral · w)

mutual

/-- Equality of types. The order of a union's members, of a literal's values, and the spelling of a
union do not count. -/
def equals : TypeExpr → TypeExpr → Bool
  | .any, b => match b with
    | .any => true
    | _ => false
  | .none, b => match b with
    | .none => true
    | _ => false
  | .primitive p, b => match b with
    | .primitive q => p == q
    | _ => false
  | .named c, b => match b with
    | .named d => c == d
    | _ => false
  | .list s a, b => match b with
    | .list t b => s == t && a.equals b
    | _ => false
  | .set a, b => match b with
    | .set b => a.equals b
    | _ => false
  | .frozenSet a, b => match b with
    | .frozenSet b => a.equals b
    | _ => false
  | .dict s k v, b => match b with
    | .dict t l w => s == t && k.equals l && v.equals w
    | _ => false
  | .tuple as, b => match b with
    | .tuple bs => equalAll as bs
    | _ => false
  | .tupleOf a, b => match b with
    | .tupleOf b => a.equals b
    | _ => false
  | .union _ as, b => match b with
    | .union _ bs => allAmong as bs && bs.all fun b => someEquals as b
    | _ => false
  | .literal vs, b => match b with
    | .literal ws => sameLiterals vs ws
    | _ => false
  | .annotated a ms, b => match b with
    | .annotated b ns => a.equals b && Value.equalItems ms ns
    | _ => false
  | .descriptor a, b => match b with
    | .descriptor b => a.equals b
    | _ => false
termination_by structural a => a

def equalAll : List TypeExpr → List TypeExpr → Bool
  | [], bs => bs.isEmpty
  | a :: as, bs => match bs with
    | b :: bs => a.equals b && equalAll as bs
    | [] => false
termination_by structural as => as

/-- Every type of the first list equals one of the second. -/
def allAmong : List TypeExpr → List TypeExpr → Bool
  | [], _ => true
  | a :: as, bs => bs.any (fun b => a.equals b) && allAmong as bs
termination_by structural as => as

/-- One of the types equals `b`. -/
def someEquals : List TypeExpr → TypeExpr → Bool
  | [], _ => false
  | a :: as, b => a.equals b || someEquals as b
termination_by structural as => as

end

instance : BEq TypeExpr := ⟨equals⟩

mutual

/-- No metadata in it is open to change, so that the type can be a key. -/
def hashable (frozen : String → Bool) : TypeExpr → Bool
  | .any | .none | .primitive _ | .named _ => true
  | .list _ a | .set a | .frozenSet a | .tupleOf a => a.hashable frozen
  | .dict _ k v => k.hashable frozen && v.hashable frozen
  | .tuple as | .union _ as => hashableAll frozen as
  | .literal vs => Value.hashableItems frozen vs
  | .annotated a ms => a.hashable frozen && Value.hashableItems frozen ms
  | .descriptor _ => true

def hashableAll (frozen : String → Bool) : List TypeExpr → Bool
  | [] => true
  | a :: as => a.hashable frozen && hashableAll frozen as

end

mutual

/-- Whether a comparison of two types comes to an end: unions and literals are compared as sets of
their parts, which raises if one of these cannot be a key. What no part is compared for any more does
not matter; every part counts as an object of its own here, so that none goes without being
compared. -/
def comparable (frozen : String → Bool) : TypeExpr → TypeExpr → Bool
  | .list s a, b => match b with
    | .list t b => s != t || a.comparable frozen b
    | _ => true
  | .set a, b => match b with
    | .set b => a.comparable frozen b
    | _ => true
  | .frozenSet a, b => match b with
    | .frozenSet b => a.comparable frozen b
    | _ => true
  | .dict s k v, b => match b with
    | .dict t l w =>
      s != t || k.comparable frozen l && (!k.equals l || v.comparable frozen w)
    | _ => true
  | .tuple as, b => match b with
    | .tuple bs => comparableAll frozen as bs
    | _ => true
  | .tupleOf a, b => match b with
    | .tupleOf b => a.comparable frozen b
    | _ => true
  | .union _ as, b => match b with
    | .union _ bs => hashableAll frozen as && hashableAll frozen bs
    | _ => true
  | .literal vs, b => match b with
    | .literal ws => Value.hashableItems frozen vs && Value.hashableItems frozen ws
    | _ => true
  | .annotated a _, b => match b with
    | .annotated b _ => a.comparable frozen b
    | _ => true
  | .descriptor a, b => match b with
    | .descriptor b => a.comparable frozen b
    | _ => true
  | _, _ => true
termination_by structural a => a

/-- Types in turn, up to the first two that differ. -/
def comparableAll (frozen : String → Bool) : List TypeExpr → List TypeExpr → Bool
  | [], _ => true
  | a :: as, bs => match bs with
    | b :: bs => a.comparable frozen b && (!a.equals b || comparableAll frozen as bs)
    | [] => true
termination_by structural as => as

end

/-- Types that hold nothing but the null value. -/
def isNull : TypeExpr → Bool
  | .none => true
  | .primitive .noneType => true
  | .literal [.none] => true
  | _ => false

end TypeExpr
end WorkflowClient
