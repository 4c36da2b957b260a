import WorkflowClient.Descriptor
import WorkflowClient.Diagnostic.Causes
import WorkflowClient.Json.Reader
import WorkflowClient.Log.Line
import WorkflowClient.Payload.Jsonable

/-! Payload texts from values, and values of a type from payload texts. -/
namespace WorkflowClient.Payload

/-- Why a value could not be encoded: it, or a part of it, has no payload; or something else was
raised. -/
inductive EncodeFailure
  | noPayload (typeName : String)
  | raised (e : Raised)
deriving DecidableEq

/-- The name of a value's class with a hint at numbers, the usual cause. -/
def suspect (v : Value) : String := v.className ++ " (contains NaN or Infinity)"

/-- What a fault in the value comes to. A part that is not supported is named itself. -/
def EncodeFault.failure (v : Value) : EncodeFault → EncodeFailure
  | .unsupported name => .noPayload name
  | .unserializable | .undecodable | .integerTooLong => .noPayload (suspect v)
  | .raised e => .raised e

/-- The compact text of a value's plain data. -/
def dumps (Γ : Catalog) (v : Value) : Except EncodeFailure String :=
  match (jsonable Γ v).bind dataOf with
  | .error e => .error (e.failure v)
  | .ok j => .ok (String.ofList (j.chars Json.compact))

/-- The plain data of a text; no text, or an empty one, is null. Names that an object repeats count
once. -/
def loads (text : Option String) : Except Json.ReadError Json :=
  match text with
  | none => .ok .null
  | some s => if s.isEmpty then .ok .null else (Json.read none s).map Json.settle

/-- The payload of a value. The null value has none. -/
def encode (Γ : Catalog) (v : Value) : Except EncodeFailure (Option String) :=
  match v with
  | .none => .ok none
  | v => (dumps Γ v).map some

/-- Why a payload could not be decoded: there is no schema for the target, the payload is none of
it, or a check of the application raised something else. -/
inductive DecodeFailure
  | noSchema (target : String)
  | invalid (target : String) (faults : List Validation.Fault)
  | raised (e : Raised)

/-- The error of the codec that a failure is reported as; none if something else was raised. -/
def EncodeFailure.diagnostic? : EncodeFailure → Option Diagnostic
  | .noPayload typeName => some (.encodeFailed typeName)
  | .raised _ => none

/-- The same for decoding; `details` says what is wrong with the payload. -/
def DecodeFailure.diagnostic? (details : List String) : DecodeFailure → Option Diagnostic
  | .noSchema target | .invalid target _ => some (.decodeFailed target details)
  | .raised _ => none

/-- The deepest nesting of containers in a payload. -/
def depthLimit : Nat := 200

/-- A payload text against a type. -/
def decodeAs (Γ : Catalog) (T : TypeExpr) (text : String) : Except Validation.Refusal Value :=
  match Json.read (some depthLimit) text with
  | .error _ => .error (.faults [⟨.notJson, []⟩])
  | .ok j => Validation.examine Γ .data (.ofJson j) T

/-- What a decoding answers, and what it writes to the log. -/
structure Decoded where
  result : Except DecodeFailure Value
  log : List Log.Record := []

/-- The value of a payload that has a text, by a descriptor. Only faults are logged. -/
def decodeText (Γ : Catalog) (d : Descriptor) (text : String) : Decoded :=
  match decodeAs Γ d.type text with
  | .ok v => ⟨.ok v, []⟩
  | .error (.faults fs) =>
    ⟨.error (.invalid d.name fs),
      [⟨.codec, Log.error, "Failed to decode payload into " ++ d.name⟩]⟩
  | .error (.raised e) => ⟨.error (.raised e), []⟩

/-- The text of a payload. No payload, or an empty one, has none. -/
def present? (raw : Option String) : Option String := raw.filter fun text => !text.isEmpty

/-- The value of a payload by a descriptor; the null value for none. -/
def decodeWith (Γ : Catalog) (d : Descriptor) (raw : Option String) : Decoded :=
  match present? raw with
  | none => ⟨.ok .none, []⟩
  | some text => decodeText Γ d text

/-- The value of a payload, and the descriptors after it. Without a payload the target does not
matter. -/
def decode (Γ : Catalog) (s : Descriptors) (raw : Option String) (target : Target) :
    Decoded × Descriptors :=
  match present? raw with
  | none => (⟨.ok .none, []⟩, s)
  | some text => match s.of? Γ target with
    | none => (⟨.error (.noSchema target.headName), []⟩, s)
    | some (d, s) => (decodeText Γ d text, s)

end WorkflowClient.Payload
