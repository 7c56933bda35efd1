import Invigilation.Coordinator.Basic
import Invigilation.Session.Spawner

/-!
# Calls of a coordinator

A call carries one task through the stages of its plan, one after the other, and ends with the first
that fails. Like a session, it advances by moves, some its own and some of the world around it, in
any order; a move that cannot happen changes nothing.

- `Call`, `Call.Move`, `Call.step`: the state, what can happen, and its effect on call and gate.
- `Call.Event`: what is seen of a call from outside.
- `Call.course`: the moves of a call with a given server and spawner.
-/

namespace Invigilation

/-- Why a task failed. -/
inductive CallError where
  | client (e : ClientError)
  | session (e : SessionError)
  deriving DecidableEq, Repr

/-- The wording of a call error. -/
def CallError.message : CallError → String
  | .client e => e.message
  | .session e => e.message

namespace Call

/-- How a call ended. -/
inductive Result where
  | acted (a : Action) (usedWorker : Bool)
  /-- Whether there was a worker to ping. -/
  | pinged (answered : Bool)
  | failed (e : CallError)
  | abandoned
  deriving DecidableEq, Repr

/-- Where a call stands. -/
inductive Phase where
  /-- The first of these stages comes next. -/
  | working (stages : List Coordinator.Stage)
  | inSession (session : Session) (rest : List Coordinator.Stage)
  /-- A request was sent to a URL and is not answered yet. -/
  | inRequest (a : Action) (url : String) (rest : List Coordinator.Stage)
  | over (result : Result)
  deriving DecidableEq

/-- What is seen of a call. -/
inductive Event where
  /-- The unload warning was taken off. -/
  | detached
  | session (event : Session.Event)
  /-- A request was sent, while the unload warning was attached or not. -/
  | requested (request : Http.Request) (attached : Bool)
  /-- The request was answered with success. -/
  | updated (a : Action)
  | reloaded
  deriving DecidableEq

/-- What can happen to a call. -/
inductive Move where
  /-- The next stage begins. -/
  | proceed
  | session (move : Session.Move)
  /-- This comes of the request. -/
  | reply (reply : Http.Reply)
  /-- The caller loses interest. -/
  | abandon (now : Nat)

end Call

/-- A call. -/
structure Call where
  coordinator : Coordinator
  task : Coordinator.Task
  phase : Call.Phase
  deriving DecidableEq

namespace Call

/-- The result of a task whose stages have all succeeded. -/
def success (c : Coordinator) : Coordinator.Task → Result
  | .act a _ => .acted a c.usesWorker
  | .ping => .pinged c.usesWorker

/-- Where a call stands when these stages are left. -/
def continuing (c : Coordinator) (t : Coordinator.Task) : List Coordinator.Stage → Phase
  | [] => .over (success c t)
  | stages => .working stages

/-- A call at its start. -/
def start (coordinator : Coordinator) (task : Coordinator.Task) : Call :=
  ⟨coordinator, task, continuing coordinator task (coordinator.plan task)⟩

/-- The result of the call, once it has ended. -/
def result? (c : Call) : Option Result :=
  match c.phase with
  | .over result => some result
  | _ => none

/-- The beginning of a stage. The reload is a call's last act. -/
def begin (c : Call) (gate : Gate) (rest : List Coordinator.Stage) :
    Coordinator.Stage → Phase × Gate × List Event
  | .detach => (continuing c.coordinator c.task rest, gate.detach, [.detached])
  | .session request entryPoint => (.inSession { request, entryPoint } rest, gate, [])
  | .update a url =>
    match c.coordinator.client.updateRequest url a with
    | .ok request => (.inRequest a request.url rest, gate, [.requested request gate.isAttached])
    | .error e => (.over (.failed (.client e)), gate, [])
  | .reload => (continuing c.coordinator c.task rest, gate, [.reloaded])

/-- The phase after a move of the session. -/
def afterSession (c : Call) (s : Session) (rest : List Coordinator.Stage) : Phase :=
  match s.result? with
  | none => .inSession s rest
  | some (_, .answered) => continuing c.coordinator c.task rest
  | some (_, .failed e) => .over (.failed (.session e))
  | some (_, .abandoned) => .over .abandoned

/-- The phase after a move, the gate, and what is seen. -/
def stepPhase (c : Call) (gate : Gate) : Phase → Move → Phase × Gate × List Event
  | .working (stage :: rest), .proceed => c.begin gate rest stage
  | .inSession s rest, .session m =>
    let (s, events) := s.step m
    (c.afterSession s rest, gate, events.map .session)
  | .inSession s rest, .abandon now =>
    let (s, events) := s.step (.abandon now)
    (c.afterSession s rest, gate, events.map .session)
  | .inRequest a url rest, .reply reply =>
    match Client.concludeUpdate url reply with
    | .ok () => (continuing c.coordinator c.task rest, gate, [.updated a])
    | .error e => (.over (.failed (.client e)), gate, [])
  | .working _, .abandon _ | .inRequest _ _ _, .abandon _ => (.over .abandoned, gate, [])
  | phase, _ => (phase, gate, [])

/-- One move. -/
def step (c : Call) (gate : Gate) (m : Move) : Call × Gate × List Event :=
  let (phase, gate, events) := c.stepPhase gate c.phase m
  ({ c with phase }, gate, events)

/-- A run of moves. -/
def run (c : Call) (gate : Gate) : List Move → Call × Gate × List Event
  | [] => (c, gate, [])
  | m :: rest =>
    let (c, gate, events) := c.step gate m
    let (c, gate, later) := c.run gate rest
    (c, gate, events ++ later)

/-- What a call meets. -/
structure World where
  server : Http.Server := .unreachable
  spawner : Spawner
  /-- How long the caller waits for a session. -/
  patience : Nat

/-- The moves until the stage in hand is finished. -/
def stageMoves (c : Call) (w : World) : List Move :=
  match c.phase with
  | .working _ => [.proceed]
  | .inSession s _ => (s.course w.spawner w.patience).map .session
  | .inRequest _ _ _ => [.reply w.server.reply]
  | .over _ => []

/-- The moves of at most `fuel` stretches of a call. -/
def courseWithin (w : World) : (fuel : Nat) → Call → Gate → List Move
  | 0, _, _ => []
  | fuel + 1, c, gate =>
    let moves := c.stageMoves w
    let (c, gate, _) := c.run gate moves
    moves ++ courseWithin w fuel c gate

/-- How many stages are left. -/
def stagesLeft (c : Call) : Nat :=
  match c.phase with
  | .working stages => stages.length
  | .inSession _ rest | .inRequest _ _ rest => rest.length + 1
  | .over _ => 0

/-- The moves of a call from where it stands to its end. -/
def course (c : Call) (w : World) (gate : Gate) : List Move :=
  courseWithin w (2 * c.stagesLeft) c gate

end Call

end Invigilation
