import WorkflowClient.Declaration
import WorkflowClient.Log.Line

/-! The workflow types that a client knows, by name. -/
namespace WorkflowClient

structure Registry where
  types : List WorkflowType
  names_nodup : (types.map (·.name)).Nodup

namespace Registry

/-- The registry of some types, unless two of them share a name. -/
def build (types : List WorkflowType) : Except Diagnostic Registry :=
  let names := types.map (·.name)
  if h : Text.repeated names = [] then .ok ⟨types, Text.repeated_eq_nil_iff.mp h⟩
  else .error (.duplicateTypes (Text.repeated names))

def countText (n : Nat) (what : String) : String := toString n ++ " " ++ what

/-- What is logged of a type that was registered. -/
def registeredText (t : WorkflowType) : String :=
  "Registered workflow type " ++ Diagnostic.tick t.name ++ ": " ++
    String.intercalate ", "
      [countText t.states.length "states", countText t.channels.length "signal channels",
        countText t.attributes.length "query attributes"]

def log (r : Registry) : List Log.Record :=
  r.types.map fun t => ⟨.registry, Log.debug, registeredText t⟩

/-- The types with their names; the last one counts under a name that comes again. -/
def entries (r : Registry) : List (String × WorkflowType) :=
  Json.settleEntries (r.types.map fun t => (t.name, t))

def names (r : Registry) : List String := r.entries.map (·.1)

def get? (r : Registry) (name : String) : Option WorkflowType := r.entries.lookup name

def contains (r : Registry) (name : String) : Bool := r.names.contains name

def size (r : Registry) : Nat := r.entries.length

def state? (r : Registry) (type id : String) : Option State :=
  (r.get? type).bind fun t => t.state? id

def channelType? (r : Registry) (type channel : String) : Option Descriptor :=
  (r.get? type).bind fun t => t.channelType? channel

def attributeType? (r : Registry) (type key : String) : Option Descriptor :=
  (r.get? type).bind fun t => t.attributeType? key

/-- The descriptors of all channels of a type that is known. -/
def channelTypes? (r : Registry) (type : String) : Option (List (String × Descriptor)) :=
  (r.get? type).map (·.channelTypes)

def attributeTypes? (r : Registry) (type : String) : Option (List (String × Descriptor)) :=
  (r.get? type).map (·.attributeTypes)

def text (r : Registry) : String := "Registry(" ++ Text.quotedList r.names ++ ")"

end Registry
end WorkflowClient
