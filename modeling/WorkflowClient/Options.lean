import WorkflowClient.Diagnostic.Render
import WorkflowClient.Failure
import WorkflowClient.Message.Reading

/-! The settings of a client and of a single start. -/
namespace WorkflowClient
open Message (Members Reading field)

structure Options where
  serverUrl : String := "http://localhost:8801"
  /-- Where the service calls back to run the states. -/
  workerUrl : String := "http://localhost:8802"
  /-- Zero leaves the choice to the service. -/
  workflowTimeout : Int := 0
  /-- Without it, a call waits as long as the service does. -/
  requestTimeout : Option Number.Double := none
deriving DecidableEq

namespace Options

/-- A setting has one name only, and may be left out. -/
def setting {α : Type} (name : String) (default : α) (decode : Value → Validation.Checked α) :
    Reading α :=
  field [name] (.ok default) decode

def names : List String :=
  ["server_url", "worker_url", "default_workflow_timeout_seconds", "request_timeout_seconds"]

def reading : Reading Options :=
  let standard : Options := {}
  Options.mk <$> setting "server_url" standard.serverUrl Message.text <*>
    setting "worker_url" standard.workerUrl Message.text <*>
    setting "default_workflow_timeout_seconds" standard.workflowTimeout Message.integer <*>
    setting "request_timeout_seconds" standard.requestTimeout (Message.nullable Message.float)

/-- An optional float as a value. -/
def ofFloat? : Option Number.Double → Value
  | none => .none
  | some x => .float x

def fields (o : Options) : List (String × Value) :=
  [("server_url", .str o.serverUrl), ("worker_url", .str o.workerUrl),
    ("default_workflow_timeout_seconds", .int o.workflowTimeout),
    ("request_timeout_seconds", ofFloat? o.requestTimeout)]

def isUrl (s : String) : Bool := s.startsWith "http://" || s.startsWith "https://"

def urlViolation (name url : String) : List Diagnostic :=
  if isUrl url then [] else [.invalidUrl name url]

def timeoutText (n : Int) : String := String.ofList (Number.intText n)

def workflowTimeoutViolation (n : Int) : List Diagnostic :=
  if n < 0 then
    [.invalidTimeout "default_workflow_timeout_seconds" "non-negative" (timeoutText n)
      (some "use 0 to let the service pick its default timeout")]
  else []

def requestTimeoutViolation : Option Number.Double → List Diagnostic
  | none => []
  | some t =>
    if t.nonPositive then
      [.invalidTimeout "request_timeout_seconds" "positive" t.text
        (some "use None to wait without a client-side timeout")]
    else []

/-- Every setting that is out of range, in the order of the settings. -/
def violations (o : Options) : List Diagnostic :=
  urlViolation "server_url" o.serverUrl ++ urlViolation "worker_url" o.workerUrl ++
    workflowTimeoutViolation o.workflowTimeout ++ requestTimeoutViolation o.requestTimeout

/-- A negative timeout can be reported if it can be written. -/
def reportable (timeout : Int) : Bool := !decide (timeout < 0) || Number.writable timeout

def check (o : Options) : Except Failure Options :=
  if reportable o.workflowTimeout then
    match Diagnostic.raised? "config" o.violations with
    | some d => .error (.diagnostic d)
    | none => .ok o
  else .error (.invalid [⟨.valueError, []⟩])

/-- Options from settings by name. Other names do not matter. -/
def ofMembers (given : Members) : Except Failure Options :=
  match reading.run given with
  | .error faults => .error (.invalid faults)
  | .ok o => o.check

/-- The stem of this library's environment variables. -/
def variableStem : String := "STATEWIRE_"

/-- ASCII letters in upper case. -/
def upper (s : String) : String := String.ofList (s.toList.map Char.toUpper)

/-- The settings that the environment makes. An empty variable makes none. -/
def environmentMembers (stem : String) (env : Diagnostic.Environment) : Members :=
  names.filterMap fun name => match env.get? (stem ++ upper name) with
    | some s => if s.isEmpty then none else some (name, .str s)
    | none => none

def ofEnvironment (stem : String) (env : Diagnostic.Environment) : Except Failure Options :=
  ofMembers (environmentMembers stem env)

/-- Options from the variables that are handed in, or from those of the process if none are. -/
def ofVariables (stem : String) (process : Diagnostic.Environment)
    (handed : Option Diagnostic.Environment) : Except Failure Options :=
  ofEnvironment stem (handed.getD process)

def workflowTimeoutText (n : Int) : String :=
  if n = 0 then "server default" else timeoutText n ++ "s"

def requestTimeoutText : Option Number.Double → String
  | none => "none"
  | some t => t.text ++ "s"

/-- The settings as the log shows them, if the timeout can be written. -/
def log (o : Options) : Except Failure (List Log.Record) :=
  if Number.writable o.workflowTimeout then
    .ok (["statewire client configuration:", "  server_url: " ++ o.serverUrl,
      "  worker_url: " ++ o.workerUrl,
      "  workflow timeout: " ++ workflowTimeoutText o.workflowTimeout,
      "  request timeout: " ++ requestTimeoutText o.requestTimeout].map
        fun text => ⟨.config, Log.info, text⟩)
  else .error .unwritable

end Options

/-- Settings of a single start. -/
structure StartOptions where
  workflowTimeout : Int := 0
deriving DecidableEq

namespace StartOptions

def reading : Reading StartOptions :=
  StartOptions.mk <$> Options.setting "workflow_timeout_seconds" 0 Message.integer

def fields (o : StartOptions) : List (String × Value) :=
  [("workflow_timeout_seconds", .int o.workflowTimeout)]

def check (o : StartOptions) : Except Failure StartOptions :=
  if o.workflowTimeout < 0 then
    if Number.writable o.workflowTimeout then
      .error (.diagnostic (.invalidTimeout "workflow_timeout_seconds" "non-negative"
        (Options.timeoutText o.workflowTimeout) none))
    else .error (.invalid [⟨.valueError, []⟩])
  else .ok o

def ofMembers (given : Members) : Except Failure StartOptions :=
  match reading.run given with
  | .error faults => .error (.invalid faults)
  | .ok o => o.check

end StartOptions
end WorkflowClient
