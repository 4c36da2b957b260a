import WorkflowClient.TypeExpr.Basic
import WorkflowClient.Value.Text

/-! Type expressions as texts. -/
namespace WorkflowClient
namespace Primitive

/-- The type's own name. -/
def name : Primitive → String
  | .int => "int"
  | .float => "float"
  | .str => "str"
  | .bool => "bool"
  | .bytes => "bytes"
  | .date => "date"
  | .instant => "datetime"
  | .clock => "time"
  | .uuid => "UUID"
  | .decimal => "Decimal"
  | .list => "list"
  | .dict => "dict"
  | .tuple => "tuple"
  | .set => "set"
  | .noneType => "NoneType"

/-- The name with the place the type comes from. -/
def qualified : Primitive → String
  | .date => "datetime.date"
  | .instant => "datetime.datetime"
  | .clock => "datetime.time"
  | .uuid => "uuid.UUID"
  | .decimal => "decimal.Decimal"
  | p => p.name

end Primitive

namespace TypeExpr

def bracketed (head : String) (args : List String) : String :=
  head ++ "[" ++ String.intercalate ", " args ++ "]"

mutual

/-- The text of a type, `alone` or as a part of another one. Only classes differ: alone they go by
their own name. -/
def textAs (alone : Bool) : TypeExpr → String
  | .any => if alone then "Any" else "typing.Any"
  | .none => "None"
  | .primitive p => if alone then p.name else p.qualified
  | .named c => if alone then c else Value.home ++ "." ++ c
  | .list .native a => bracketed "list" [a.textAs false]
  | .list .vocabulary a => bracketed "typing.List" [a.textAs false]
  | .set a => bracketed "set" [a.textAs false]
  | .frozenSet a => bracketed "frozenset" [a.textAs false]
  | .dict .native k v => bracketed "dict" [k.textAs false, v.textAs false]
  | .dict .vocabulary k v => bracketed "typing.Dict" [k.textAs false, v.textAs false]
  | .tuple as => if as.isEmpty then "tuple[()]" else bracketed "tuple" (texts as)
  | .tupleOf a => bracketed "tuple" [a.textAs false, "..."]
  | .union .vocabulary [.primitive .noneType, a] => bracketed "typing.Optional" [a.textAs false]
  | .union .vocabulary [a, .primitive .noneType] => bracketed "typing.Optional" [a.textAs false]
  | .union .vocabulary as => bracketed "typing.Union" (texts as)
  | .union .native as => String.intercalate " | " (barTexts as)
  | .literal vs => bracketed "typing.Literal" (Value.quotedItems vs)
  | .annotated a ms => bracketed "typing.Annotated" (a.textAs false :: Value.quotedItems ms)
  | .descriptor a => "TypeDescriptor(" ++ a.textAs true ++ ")"

def texts : List TypeExpr → List String
  | [] => []
  | a :: as => a.textAs false :: texts as

/-- Members between bars, where the null type shows as its value. -/
def barTexts : List TypeExpr → List String
  | [] => []
  | .primitive .noneType :: as => "None" :: barTexts as
  | a :: as => a.textAs false :: barTexts as

end

/-- The text of a type inside another one. -/
def text (a : TypeExpr) : String := a.textAs false

/-- The name of a type by itself. -/
def name (a : TypeExpr) : String := a.textAs true

/-- The name under which a type that cannot be checked is reported: of a generic type its head
alone, and a union between bars in full. -/
def headName : TypeExpr → String
  | .list .native _ => "list"
  | .list .vocabulary _ => "List"
  | .set _ => "set"
  | .frozenSet _ => "frozenset"
  | .dict .native .. => "dict"
  | .dict .vocabulary .. => "Dict"
  | .tuple _ | .tupleOf _ => "tuple"
  | .union .vocabulary [.primitive .noneType, _] => "Optional"
  | .union .vocabulary [_, .primitive .noneType] => "Optional"
  | .union .vocabulary _ => "Union"
  | .literal _ => "Literal"
  | .annotated .. => "Annotated"
  | a => a.name

end TypeExpr
end WorkflowClient
