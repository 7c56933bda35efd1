import Invigilation.Json.Reader.Envelope
import Invigilation.Settings.Basic
import Invigilation.Text.Numeral

/-!
# Settings from environment variables

Each setting has a variable. A variable whose value is no UTF-8 counts as unset. The four settings
that can be malformed are checked in a fixed order, so that of several faults the first is reported.

- `Environment`: the variables and their bytes.
- `Settings.ofEnvironment`: the settings they describe.
- `SettingsError`: what can be wrong with them.
-/

namespace Invigilation

open Text (Bytes)

/-- The variables of an environment with their values; the first entry of a name counts. -/
abbrev Environment := List (String × Bytes)

/-- The value of a variable, if it is set and UTF-8. -/
def Environment.get? (env : Environment) (name : String) : Option String :=
  (env.lookup name).bind Text.ofBytes?

/-- The names of the variables. -/
inductive Variable where
  | baseUrl
  | httpTimeout
  | csrfToken
  | entryPoint
  | responseTimeout
  | pingTimeout
  | workerOptions
  | unloadWarning
  deriving DecidableEq, Repr

/-- Every variable. -/
def Variable.all : List Variable :=
  [.baseUrl, .httpTimeout, .csrfToken, .entryPoint, .responseTimeout, .pingTimeout, .workerOptions,
    .unloadWarning]

/-- The name of a variable. -/
def Variable.name : Variable → String
  | .baseUrl => "PROCTORING_BASE_URL"
  | .httpTimeout => "PROCTORING_HTTP_TIMEOUT_MS"
  | .csrfToken => "PROCTORING_CSRF_TOKEN"
  | .entryPoint => "PROCTORING_WORKER_ENTRY_POINT"
  | .responseTimeout => "PROCTORING_WORKER_RESPONSE_TIMEOUT_MS"
  | .pingTimeout => "PROCTORING_WORKER_PING_TIMEOUT_MS"
  | .workerOptions => "PROCTORING_WORKER_OPTIONS"
  | .unloadWarning => "PROCTORING_UNLOAD_WARNING"

/-- What is wrong with the worker options. -/
inductive OptionsFault where
  | unreadable (message : String)
  | notAnObject
  deriving DecidableEq, Repr

/-- The wording of a fault of the worker options. -/
def OptionsFault.message : OptionsFault → String
  | .unreadable message => message
  | .notAnObject => "expected a JSON object"

/-- What is wrong with an environment. -/
inductive SettingsError where
  | httpTimeout (fault : Text.NumeralFault)
  | responseTimeout (fault : Text.NumeralFault)
  | pingTimeout (fault : Text.NumeralFault)
  | workerOptions (fault : OptionsFault)
  deriving DecidableEq, Repr

/-- The variable that an error is about. -/
def SettingsError.variable : SettingsError → Variable
  | .httpTimeout _ => .httpTimeout
  | .responseTimeout _ => .responseTimeout
  | .pingTimeout _ => .pingTimeout
  | .workerOptions _ => .workerOptions

/-- The wording of an error, without the variable. -/
def SettingsError.detail : SettingsError → String
  | .httpTimeout fault | .responseTimeout fault | .pingTimeout fault => fault.message
  | .workerOptions fault => fault.message

/-- The wording of an error. -/
def SettingsError.message (e : SettingsError) : String :=
  s!"invalid {e.variable.name}: {e.detail}"

namespace Settings

/-- A number of milliseconds; the text is trimmed. -/
def readMilliseconds (text : String) : Except Text.NumeralFault Nat :=
  Text.readUnsigned (Text.trim text)

/-- A number of milliseconds, or none when the text is blank. -/
def readOptionalMilliseconds (text : String) : Except Text.NumeralFault (Option Nat) :=
  if (Text.content? text).isNone then .ok none else (readMilliseconds text).map some

/-- The worker options, or none when the text is blank. The text is not trimmed before it is read:
only JSON's own blanks may surround the object. Envelopes in it are opened. -/
def readOptions (text : String) : Except OptionsFault (Option Json) :=
  if (Text.content? text).isNone then .ok none
  else
    let bytes := Text.toBytes text
    match Json.parseOpened bytes with
    | .ok (.obj members) => .ok (some (Json.settled (.obj members)))
    | .ok _ => .error .notAnObject
    | .error fault => .error (.unreadable (fault.message bytes))

/-- The value of a variable that is read by `read`, or the default when it is unset. -/
def lookup {α ε : Type} (env : Environment) (v : Variable) (unset : α)
    (read : String → Except ε α) (wrap : ε → SettingsError) : Except SettingsError α :=
  match env.get? v.name with
  | none => .ok unset
  | some text => (read text).mapError wrap

/-- The text of a variable, trimmed; none when it is unset or blank. -/
def lookupText (env : Environment) (v : Variable) : Option String :=
  (env.get? v.name).bind Text.content?

/-- The settings that an environment describes. -/
def ofEnvironment (env : Environment) : Except SettingsError Settings := do
  let httpTimeout ← lookup env .httpTimeout defaultTimeout readMilliseconds .httpTimeout
  let responseTimeout ←
    lookup env .responseTimeout none readOptionalMilliseconds .responseTimeout
  let pingTimeout ← lookup env .pingTimeout defaultPingTimeout readMilliseconds .pingTimeout
  let workerOptions ← lookup env .workerOptions none readOptions .workerOptions
  return {
    baseUrl := lookupText env .baseUrl
    httpTimeout
    csrfToken := lookupText env .csrfToken
    entryPoint := lookupText env .entryPoint
    responseTimeout
    pingTimeout
    workerOptions
    unloadWarning := (lookupText env .unloadWarning).getD defaultWarning }

end Settings

end Invigilation
