import WorkflowClient.Descriptor
import WorkflowClient.Diagnostic.Causes
import WorkflowClient.Text.Basic

/-! Declarations of workflow types: the states a run may start from, the signals it takes and the
attributes that can be asked for. -/
namespace WorkflowClient
open Diagnostic (Part)

structure State where
  id : String
  canStart : Bool := false
deriving DecidableEq

structure Channel where
  name : String
  type : Descriptor

structure Attribute where
  key : String
  type : Descriptor

/-- A declaration as it is written down; nothing about it is checked yet. -/
structure Declaration where
  name : String
  states : List State := []
  channels : List Channel := []
  attributes : List Attribute := []
  description : Option String := none

namespace Declaration

/-- The descriptor for the values of a part, kept with the others. -/
def valueType (Γ : Catalog) (s : Descriptors) (part : Part) (name : String) (t : Target) :
    Except Diagnostic (Descriptor × Descriptors) :=
  match s.of? Γ t with
  | some r => .ok r
  | none => .error (.unsupportedType part name t.headName)

def stateIds (d : Declaration) : List String := d.states.map (·.id)

def channelNames (d : Declaration) : List String := d.channels.map (·.name)

def attributeKeys (d : Declaration) : List String := d.attributes.map (·.key)

/-- A name without a single character that is not blank. -/
def isUnnamed (d : Declaration) : Bool := d.name.toList.all Text.isBlank

/-- One error for every name that a part repeats. -/
def duplicates (part : Part) (type : String) (names : List String) : List Diagnostic :=
  (Text.repeated names).map (Diagnostic.duplicatePart part type)

/-- All that is wrong with a declaration, in this order. -/
def violations (d : Declaration) : List Diagnostic :=
  (if d.isUnnamed then [.noName] else []) ++ duplicates .state d.name d.stateIds ++
    duplicates .channel d.name d.channelNames ++ duplicates .attribute d.name d.attributeKeys

/-- Declarations are equal whatever their descriptions say. -/
def equals (d e : Declaration) : Bool :=
  d.name == e.name && d.states == e.states &&
    (d.channelNames == e.channelNames && d.channels.map (·.type) == e.channels.map (·.type)) &&
    (d.attributeKeys == e.attributeKeys && d.attributes.map (·.type) == e.attributes.map (·.type))

/-- The states that a run may start from. -/
def startingIds (d : Declaration) : List String := (d.states.filter (·.canStart)).map (·.id)

/-- The states by id; the last one counts under an id that comes again. -/
def stateTable (d : Declaration) : List (String × State) :=
  Json.settleEntries (d.states.map fun s => (s.id, s))

/-- The descriptors of the channels by name, in the same way. -/
def channelTypes (d : Declaration) : List (String × Descriptor) :=
  Json.settleEntries (d.channels.map fun c => (c.name, c.type))

/-- The descriptors of the attributes by key, in the same way. -/
def attributeTypes (d : Declaration) : List (String × Descriptor) :=
  Json.settleEntries (d.attributes.map fun a => (a.key, a.type))

def state? (d : Declaration) (id : String) : Option State := d.stateTable.lookup id

def channelType? (d : Declaration) (name : String) : Option Descriptor :=
  d.channelTypes.lookup name

def attributeType? (d : Declaration) (key : String) : Option Descriptor :=
  d.attributeTypes.lookup key

end Declaration

/-- A declaration that has a name, and in which no part repeats one. -/
structure WorkflowType extends Declaration where
  named : toDeclaration.isUnnamed = false
  states_nodup : toDeclaration.stateIds.Nodup
  channels_nodup : toDeclaration.channelNames.Nodup
  attributes_nodup : toDeclaration.attributeKeys.Nodup

namespace Diagnostic

theorem raised?_eq_none {phase : String} {ds : List Diagnostic} :
    raised? phase ds = none ↔ ds = [] := by
  match ds with
  | [] => simp [raised?]
  | [_] => simp [raised?]
  | _ :: _ :: _ => simp [raised?]

end Diagnostic

namespace Declaration

theorem violations_eq_nil {d : Declaration} :
    d.violations = [] ↔ d.isUnnamed = false ∧ d.stateIds.Nodup ∧ d.channelNames.Nodup ∧
      d.attributeKeys.Nodup := by
  simp [violations, duplicates, Text.repeated_eq_nil_iff]

/-- The workflow type that a declaration describes, or what is wrong with it. -/
def check (d : Declaration) : Except Diagnostic WorkflowType :=
  match h : Diagnostic.raised? "workflow definition" d.violations with
  | some e => .error e
  | none =>
    have ok := violations_eq_nil.mp (Diagnostic.raised?_eq_none.mp h)
    .ok ⟨d, ok.1, ok.2.1, ok.2.2.1, ok.2.2.2⟩

end Declaration
end WorkflowClient
