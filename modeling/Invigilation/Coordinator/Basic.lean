import Invigilation.Session.Basic
import Invigilation.Settings.Basic

/-!
# The coordinator of attempt actions

A coordinator carries an action of the learner through its stages. A start arms the worker before
the attempt is reported as started; a submission is reported before the worker is told to stop, and
takes the unload warning off first. The page is reloaded once every stage has succeeded.

- `Coordinator`: the client, and the worker to use.
- `Coordinator.Task`, `Coordinator.Stage`: what can be asked for, and the steps on the way.
- `Coordinator.plan`: the stages of each task.
-/

namespace Invigilation

/-- What actions on attempts are carried out with. -/
structure Coordinator where
  client : Client
  /-- Whether workers can be spawned at all. -/
  canSpawn : Bool := false
  entryPoint : Option String := none
  responseTimeout : Option Nat := none
  pingTimeout : Nat := defaultPingTimeout
  workerOptions : Option Json := none
  deriving DecidableEq

namespace Coordinator

/-- What a coordinator can be asked for. -/
inductive Task where
  | act (a : Action) (url : String)
  /-- A check that the worker answers. -/
  | ping
  deriving DecidableEq, Repr

/-- A step on the way to fulfil a task. -/
inductive Stage where
  /-- Takes the unload warning off. -/
  | detach
  | session (request : RoundTrip) (entryPoint : String)
  /-- Reports the action. -/
  | update (a : Action) (url : String)
  | reload
  deriving DecidableEq

/-- The coordinator of some settings. A blank entry point counts as none. -/
def build? (s : Settings) (canSpawn : Bool) : Except ClientError Coordinator := do
  let client ← Client.build? s.client
  return {
    client
    canSpawn
    entryPoint := s.entryPoint.bind Text.content?
    responseTimeout := s.responseTimeout
    pingTimeout := s.pingTimeout
    workerOptions := s.workerOptions }

/-- The entry point of the worker to use, if there is one. -/
def target? (c : Coordinator) : Option String :=
  if c.canSpawn then c.entryPoint else none

/-- Whether a worker is used. -/
def usesWorker (c : Coordinator) : Bool :=
  c.target?.isSome

/-- The session for a prompt, if a worker is used. -/
def sessions (c : Coordinator) (p : Prompt) (timeout : Option Nat) : List Stage :=
  c.target?.toList.map (.session ⟨p.exchange, timeout, c.workerOptions⟩)

/-- The stages of a task. -/
def plan (c : Coordinator) : Task → List Stage
  | .act .start url =>
    c.sessions Action.start.prompt c.responseTimeout ++ [.update .start url, .reload]
  | .act .submit url =>
    [.detach, .update .submit url] ++ c.sessions Action.submit.prompt c.responseTimeout ++ [.reload]
  | .ping => c.sessions .ping (some c.pingTimeout)

end Coordinator

end Invigilation
