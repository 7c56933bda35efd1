import Invigilation.Cli.Arguments
import Invigilation.Coordinator.Call
import Invigilation.Json.Printer
import Invigilation.Session.Process
import Invigilation.Settings.Environment
import Invigilation.Worker.Acknowledge
import Invigilation.Worker.LineWorker

/-!
# What the commands do

A command reads its settings from the environment, lets the options of the command line override
them, and does its work in a world that is given: a server, and a machine that launches programs.

- `Cli.run`: the report on a command.
- `Cli.Failure`: why a command failed, with the errors that led to it.
-/

namespace Invigilation.Cli

/-- Why a command failed. -/
inductive Failure where
  | settings (e : SettingsError)
  | coordinator (e : ClientError)
  | client (e : ClientError)
  | fetch (e : ClientError)
  | ping (e : CallError)
  | action (a : Action) (url : String) (e : CallError)
  /-- There is no worker to ping. -/
  | noWorker
  /-- The call was given up before it had a result. -/
  | abandoned
  deriving DecidableEq, Repr

/-- The wording of a failure: what was tried, and the error. -/
def Failure.message : Failure → String
  | .settings e => s!"load proctoring config: {e.message}"
  | .coordinator e => s!"build attempt coordinator: {e.message}"
  | .client e => s!"build attempt client: {e.message}"
  | .fetch e => s!"fetch active attempt: {e.message}"
  | .ping e => s!"ping proctoring worker: {e.message}"
  | .action a url e => s!"{a.name} attempt via {url}: {e.message}"
  | .noWorker => "no proctoring worker entry point configured"
  | .abandoned => "gave up waiting"

/-- What a command meets. -/
structure World where
  environment : Environment := []
  server : Http.Server := .unreachable
  launch : Launcher
  /-- How long to wait for a worker. -/
  patience : Nat

/-- What came of a command. -/
structure Report where
  result : Except Failure String
  /-- The requests that arrived at the server. -/
  requests : List Http.Request := []
  /-- What was seen of the worker's session. -/
  session : List Session.Event := []

/-- A value as a command prints it. -/
def printed (value : Json) : String :=
  value.renderPretty ++ "\n"

/-- The settings of the environment, overridden by the command line, also by blank texts. -/
def loadSettings (w : World) (baseUrl : Option String) (worker : WorkerChoice) :
    Except Failure Settings := do
  let settings ← (Settings.ofEnvironment w.environment).mapError .settings
  return { settings with
    baseUrl := baseUrl.or settings.baseUrl
    entryPoint := worker.entryPoint.or settings.entryPoint }

/-- The coordinator of some settings, whose workers are programs. -/
def buildCoordinator (settings : Settings) : Except Failure Coordinator :=
  (Coordinator.build? settings true).mapError .coordinator

/-- A task, from its beginning to its end: its result, and what was seen. -/
def perform (w : World) (worker : WorkerChoice) (settings : Settings) (c : Coordinator)
    (task : Coordinator.Task) : Option Call.Result × List Call.Event :=
  let call := Call.start c task
  let gate : Gate := { message := settings.unloadWarning }
  let world : Call.World := ⟨w.server, processSpawner w.launch worker.args, w.patience⟩
  let (call, _, events) := call.run gate (call.course world gate)
  (call.result?, events)

/-- The report on a task, given its events and the printed result. -/
def report (w : World) (events : List Call.Event) (result : Except Failure String) : Report where
  result
  requests := events.filterMap fun
    | .requested r _ => if w.server.isReached then some r else none
    | _ => none
  session := events.filterMap fun
    | .session e => some e
    | _ => none

/-- Starts or submits an attempt. -/
def runAction (w : World) (a : Action) (url : String) (baseUrl : Option String)
    (worker : WorkerChoice) : Report :=
  match (do
    let settings ← loadSettings w baseUrl worker
    return (settings, ← buildCoordinator settings)) with
  | .error e => { result := .error e }
  | .ok (settings, c) =>
    let (result, events) := perform w worker settings c (.act a url)
    report w events <| match result with
      | some (.acted a usedWorker) =>
        .ok (printed (.obj [("action", a.toJson), ("used_worker", .bool usedWorker)]))
      | some (.failed e) => .error (.action a url e)
      | _ => .error .abandoned

/-- Checks that the worker answers. -/
def runPing (w : World) (worker : WorkerChoice) : Report :=
  match (do
    let settings ← loadSettings w none worker
    return (settings, ← buildCoordinator settings)) with
  | .error e => { result := .error e }
  | .ok (settings, c) =>
    let (result, events) := perform w worker settings c .ping
    report w events <| match result with
      | some (.pinged true) => .ok (printed (.obj [("worker", .str MessageType.echo.name)]))
      | some (.pinged false) => .error .noWorker
      | some (.failed e) => .error (.ping e)
      | _ => .error .abandoned

/-- The report on an attempt for a page. -/
def statusOf (a : Attempt) (pagePath unloadWarning : String) : Json :=
  let gate : Gate := { message := unloadWarning }
  let gate := gate.evaluate (.ofAttempt a pagePath)
  let text : Option String → Json
    | some s => .str s
    | none => .null
  .obj [("active", .bool a.isActive),
    ("attempt_id", match a.id with
      | some n => .int n
      | none => .null),
    ("attempt_status", text a.status),
    ("time_remaining_seconds", .int a.secondsRemaining),
    ("unload_warning", text gate.beforeUnload)]

/-- Reports the current attempt. -/
def runStatus (w : World) (url pagePath : String) (baseUrl : Option String) : Report :=
  match (do
    let settings ← loadSettings w baseUrl {}
    return (settings, ← (Client.build? settings.client).mapError .client)) with
  | .error e => { result := .error e }
  | .ok (settings, client) =>
    let (requests, attempt) := client.fetch w.server url
    { requests
      result := match attempt with
        | .error e => .error (.fetch e)
        | .ok a => .ok (printed (statusOf a pagePath settings.unloadWarning)) }

/-- The acknowledging worker on an input that is there at once and stays open until a number of
lines has come out: what it writes. -/
def runWorker (input : Text.Bytes) (lines : Nat) : Text.Bytes :=
  LineWorker.outputOf (LineWorker.serveUntil Acknowledge.factory input lines)

/-- The report on a command. A worker is given the input and the number of lines after which that
ends. -/
def run (w : World) (input : Text.Bytes) (lines : Nat) : Command → Report
  | .action a url baseUrl worker => runAction w a url baseUrl worker
  | .ping worker => runPing w worker
  | .status url pagePath baseUrl => runStatus w url pagePath baseUrl
  | .worker => { result := .ok (Text.ofBytesLossy (runWorker input lines)) }

end Invigilation.Cli
