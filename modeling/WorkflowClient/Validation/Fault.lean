/-! What can be wrong with a value, and where. -/
namespace WorkflowClient.Validation

/-- How a value is looked at: as plain data that was read, or as a value of the application, which
is converted or has to be of the type already. -/
inductive Mode
  | data
  | lax
  | strict
deriving DecidableEq

inductive FaultKind
  | notJson
  | missing
  | extraForbidden
  | unknownArgument
  | keyNotText
  | noneRequired
  | intType
  | intParsing
  | intParsingSize
  | intFromFloat
  | floatType
  | floatParsing
  | finiteNumber
  | stringType
  | stringUnicode
  | boolType
  | boolParsing
  | bytesType
  | dateType
  | dateFromInstantParsing
  | dateFromInstantInexact
  | instantType
  | instantParsing
  | instantFromDateParsing
  | clockType
  | clockParsing
  | uuidType
  | uuidParsing
  | decimalType
  | decimalParsing
  | listType
  | setType
  | frozenSetType
  | tupleType
  | tooLong
  | dictType
  | itemNotHashable
  | enumeration
  | literal
  | modelType
  | modelAttributesType
  | dataType
  | namedTupleType
  | instanceOf
  | tagNotFound
  | tagInvalid
  | valueError
deriving DecidableEq

/-- The name of a fault in reports. -/
def FaultKind.name : FaultKind → String
  | .notJson => "json_invalid"
  | .missing => "missing"
  | .extraForbidden => "extra_forbidden"
  | .unknownArgument => "unexpected_keyword_argument"
  | .keyNotText => "invalid_key"
  | .noneRequired => "none_required"
  | .intType => "int_type"
  | .intParsing => "int_parsing"
  | .intParsingSize => "int_parsing_size"
  | .intFromFloat => "int_from_float"
  | .floatType => "float_type"
  | .floatParsing => "float_parsing"
  | .finiteNumber => "finite_number"
  | .stringType => "string_type"
  | .stringUnicode => "string_unicode"
  | .boolType => "bool_type"
  | .boolParsing => "bool_parsing"
  | .bytesType => "bytes_type"
  | .dateType => "date_type"
  | .dateFromInstantParsing => "date_from_datetime_parsing"
  | .dateFromInstantInexact => "date_from_datetime_inexact"
  | .instantType => "datetime_type"
  | .instantParsing => "datetime_parsing"
  | .instantFromDateParsing => "datetime_from_date_parsing"
  | .clockType => "time_type"
  | .clockParsing => "time_parsing"
  | .uuidType => "uuid_type"
  | .uuidParsing => "uuid_parsing"
  | .decimalType => "decimal_type"
  | .decimalParsing => "decimal_parsing"
  | .listType => "list_type"
  | .setType => "set_type"
  | .frozenSetType => "frozen_set_type"
  | .tupleType => "tuple_type"
  | .tooLong => "too_long"
  | .dictType => "dict_type"
  | .itemNotHashable => "set_item_not_hashable"
  | .enumeration => "enum"
  | .literal => "literal_error"
  | .modelType => "model_type"
  | .modelAttributesType => "model_attributes_type"
  | .dataType => "dataclass_type"
  | .namedTupleType => "named_tuple_type"
  | .instanceOf => "is_instance_of"
  | .tagNotFound => "union_tag_not_found"
  | .tagInvalid => "union_tag_invalid"
  | .valueError => "value_error"

/-- One step on the way into a value. -/
inductive Step
  | name (s : String)
  | index (i : Int)
deriving DecidableEq

structure Fault where
  kind : FaultKind
  path : List Step
deriving DecidableEq

/-- A result, or every fault that was found. -/
abbrev Checked (α : Type) := Except (List Fault) α

def fault {α : Type} (kind : FaultKind) (path : List Step := []) : Checked α :=
  .error [⟨kind, path⟩]

/-- The same faults, one step further down. -/
def Checked.below {α : Type} (step : Step) (r : Checked α) : Checked α :=
  r.mapError fun fs => fs.map fun f => { f with path := step :: f.path }

/-- Both results, or the faults of both. -/
def both {α β γ : Type} (f : α → β → γ) : Checked α → Checked β → Checked γ
  | .ok a, .ok b => .ok (f a b)
  | .ok _, .error e => .error e
  | .error e, .ok _ => .error e
  | .error e, .error d => .error (e ++ d)

/-- All results, or the faults of all. -/
def collect {α : Type} : List (Checked α) → Checked (List α)
  | [] => .ok []
  | r :: rest => both List.cons r (collect rest)

/-- Results of a list's items, whose faults name the index. -/
def collectIndexed {α : Type} (start : Nat) : List (Checked α) → Checked (List α)
  | [] => .ok []
  | r :: rest => both List.cons (r.below (.index start)) (collectIndexed (start + 1) rest)

/-! When results that are put together are results. -/

theorem below_eq_ok {α : Type} {r : Checked α} {step : Step} {a : α} :
    r.below step = .ok a ↔ r = .ok a := by
  cases r with
  | error e => constructor <;> exact fun h => by cases h
  | ok b => exact Iff.rfl

theorem map_eq_ok {α β ε : Type} {r : Except ε α} {f : α → β} {b : β} (h : r.map f = .ok b) :
    ∃ a, r = .ok a ∧ f a = b := by
  cases r with
  | error e => cases h
  | ok a => exact ⟨a, rfl, Except.ok.inj h⟩

theorem map_eq_error {α β ε : Type} {r : Except ε α} {f : α → β} {e : ε}
    (h : r.map f = .error e) : r = .error e := by
  cases r with
  | error e' =>
    cases h
    rfl
  | ok a => cases h

theorem both_eq_ok {α β γ : Type} {f : α → β → γ} {x : Checked α} {y : Checked β} {c : γ} :
    both f x y = .ok c ↔ ∃ a b, x = .ok a ∧ y = .ok b ∧ f a b = c := by
  cases x <;> cases y <;> simp [both]

end WorkflowClient.Validation
