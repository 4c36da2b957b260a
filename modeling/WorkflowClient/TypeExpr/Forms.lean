import WorkflowClient.TypeExpr.Basic

/-! Building type expressions from their parts. The vocabulary for types keeps the forms it has
made, and gives an earlier one back when its parts are equal; so the order inside a nested union is
that of its first use. Parts that cannot be keys make a new form each time. -/
namespace WorkflowClient.TypeExpr

inductive FormHead
  | list
  | dict
  | union
  /-- What is annotated counts by how it is spelled, if it is a union. -/
  | annotated (spelling : Option Spelling) (metadata : Value)

/-- A form that was made: its head, its parts as given, and the type. -/
structure Form where
  head : FormHead
  parts : List TypeExpr
  made : TypeExpr

abbrev Forms := List Form

variable (frozen : String → Bool)

def FormHead.equals : FormHead → FormHead → Bool
  | .list, .list => true
  | .dict, .dict => true
  | .union, .union => true
  | .annotated s v, .annotated t w => s == t && sameLiteral v w
  | _, _ => false

/-- The form of equal parts that was made before, or else a new one. -/
def intern (head : FormHead) (parts : List TypeExpr) (made : TypeExpr) :
    StateM Forms TypeExpr := do
  if made.hashable frozen then
    let forms ← get
    match forms.find? fun f => f.head.equals head && equalAll f.parts parts with
    | some f => pure f.made
    | Option.none =>
      modify (· ++ [⟨head, parts, made⟩])
      pure made
  else pure made

/-- The spelling of a union. -/
def unionSpelling? : TypeExpr → Option Spelling
  | .union s _ => some s
  | _ => Option.none

/-- In the vocabulary `None` means its type. -/
def asType : TypeExpr → TypeExpr
  | .none => noneType
  | a => a

/-- The members of a union inside a union are members of the outer one. -/
def flatten (as : List TypeExpr) : List TypeExpr :=
  as.flatMap fun
    | .union _ bs => bs
    | a => [a]

/-- The types without those that equal an earlier one. -/
def distinct (as : List TypeExpr) : List TypeExpr :=
  (as.foldl (fun acc a => if acc.any (· == a) then acc else a :: acc) []).reverse

/-- A union of distinct members; of one member alone it is that member. -/
def unionOf (spelling : Spelling) (as : List TypeExpr) : TypeExpr :=
  match distinct (flatten (as.map asType)) with
  | [a] => a
  | as => .union spelling as

def mkList (item : TypeExpr) : StateM Forms TypeExpr :=
  let item := asType item
  intern frozen .list [item] (.list .vocabulary item)

def mkDict (key value : TypeExpr) : StateM Forms TypeExpr :=
  let (key, value) := (asType key, asType value)
  intern frozen .dict [key, value] (.dict .vocabulary key value)

def mkUnion (as : List TypeExpr) : StateM Forms TypeExpr :=
  intern frozen .union as (unionOf .vocabulary as)

def mkOptional (a : TypeExpr) : StateM Forms TypeExpr :=
  mkUnion frozen [a, noneType]

/-- Metadata of an annotated type is added to what it has. -/
def mkAnnotated (a : TypeExpr) (metadata : Value) : StateM Forms TypeExpr :=
  let a := asType a
  let made := match a with
    | .annotated b ms => .annotated b (ms ++ [metadata])
    | _ => .annotated a [metadata]
  intern frozen (.annotated (unionSpelling? a) metadata) [a] made

/-- Values that differ in class or value, each once. -/
def mkLiteral (vs : List Value) : TypeExpr :=
  .literal (vs.foldl (fun acc v => if acc.any (sameLiteral v) then acc else acc ++ [v]) [])

/-- Whether a type belongs to the vocabulary for types. -/
def isForm : TypeExpr → Bool
  | .list s _ | .dict s _ _ | .union s _ => s == .vocabulary
  | .literal _ | .annotated .. => true
  | _ => false

/-- Two types with a bar between. With a form of the vocabulary on either side it is the
vocabulary's union. -/
def mkBar (a b : TypeExpr) : StateM Forms TypeExpr :=
  if a.isForm || b.isForm then mkUnion frozen [a, b] else pure (unionOf .native [a, b])

/-- Types with bars between, from left to right. -/
def mkBars : List TypeExpr → StateM Forms TypeExpr
  | [] => pure (.union .native [])
  | a :: as => as.foldlM (mkBar frozen) a

end WorkflowClient.TypeExpr
