import Invigilation.Worker.Handler

/-!
# The dispatch loop of a worker

A worker starts with a handler for empty options and receives messages one by one. A configuration
replaces its handler, a prompt starts the hook of the handler in force, and other messages are
passed over. Hooks run side by side and
complete in any order; one that succeeds has the response paired with its prompt posted, and one
that fails is forgotten. The loop stops when no further message can come, which cuts off what still
runs.

- `Worker`: the handler's options, the hooks that run, and the responses that wait to be posted.
- `Worker.Move`, `Worker.step`: what can happen, in any order, and its effect.
- `Worker.Event`: what is seen of a worker from its backend's side.
-/

namespace Invigilation

namespace Worker

/-- A hook that runs. -/
structure Task (η : Type) where
  prompt : Prompt
  hook : η
  /-- When the prompt was received. -/
  since : Nat
  deriving DecidableEq, Repr

/-- What is seen of a worker. -/
inductive Event where
  /-- The factory was called. -/
  | built (options : Json)
  /-- The hook of a prompt was called, on the handler built from the options. -/
  | called (options : Json) (p : Prompt)
  | succeeded (p : Prompt)
  | failed (p : Prompt)
  /-- The response to a prompt was posted. -/
  | posted (p : Prompt)
  /-- The response to a prompt was given up, since nobody is left to read it. -/
  | lost (p : Prompt)
  deriving DecidableEq

/-- What can happen to a worker. -/
inductive Move where
  /-- The loop begins, and builds a handler from empty options. -/
  | start
  | receive (now : Nat) (m : HostMessage)
  /-- The hook at a place among those that run completes. -/
  | complete (place : Nat) (succeeds : Bool)
  /-- The response that has been ready for longest leaves the worker; `taken` says whether it could
  be posted. -/
  | post (taken : Bool)
  | stop
  deriving DecidableEq

end Worker

/-- A worker. -/
structure Worker (η : Type) where
  factory : Factory η
  /-- The options that the handler in force was built from. -/
  options : Json := .obj []
  /-- The hooks that have not completed, in the order of their prompts. -/
  running : List (Worker.Task η) := []
  /-- The responses that have not left the worker, in the order in which their hooks completed. -/
  ready : List Prompt := []
  started : Bool := false
  stopped : Bool := false

namespace Worker

variable {η : Type}

/-- The effect of a message. -/
def receive (w : Worker η) (now : Nat) : HostMessage → Worker η × List Event
  | .config options => ({ w with options }, [.built options])
  | .prompt p =>
    let tasks := match w.factory w.options p with
      | some hook => [⟨p, hook, now⟩]
      | none => []
    ({ w with running := w.running ++ tasks }, [.called w.options p])
  | .unknown => (w, [])

/-- The effect of the completion of a hook. -/
def complete (w : Worker η) (place : Nat) (succeeds : Bool) : Worker η × List Event :=
  match w.running[place]? with
  | none => (w, [])
  | some task =>
    let w := { w with running := w.running.eraseIdx place }
    if succeeds then ({ w with ready := w.ready ++ [task.prompt] }, [.succeeded task.prompt])
    else (w, [.failed task.prompt])

/-- The effect of a response that leaves the worker. -/
def post (w : Worker η) (taken : Bool) : Worker η × List Event :=
  match w.ready with
  | [] => (w, [])
  | p :: rest => ({ w with ready := rest }, [if taken then .posted p else .lost p])

/-- Whether the loop has begun and not stopped. -/
def isLive (w : Worker η) : Bool :=
  w.started && !w.stopped

/-- Whether a move can happen. A worker can be stopped before its loop begins. -/
def admits (w : Worker η) : Move → Bool
  | .start => !w.started && !w.stopped
  | .stop => !w.stopped
  | .receive _ _ | .complete _ _ | .post _ => w.isLive

/-- One move. -/
def step (w : Worker η) (m : Move) : Worker η × List Event :=
  if w.admits m then
    match m with
    | .start => ({ w with started := true }, [.built w.options])
    | .receive now m => w.receive now m
    | .complete place succeeds => w.complete place succeeds
    | .post taken => w.post taken
    | .stop => ({ w with stopped := true }, [])
  else (w, [])

/-- A run of moves. -/
def run (w : Worker η) : List Move → Worker η × List Event
  | [] => (w, [])
  | m :: rest =>
    let (w, events) := w.step m
    let (w, later) := w.run rest
    (w, events ++ later)

/-- When a hook of known duration completes. -/
def Task.due (t : Task Hook) : Nat :=
  t.since + t.hook.delay

/-- The task that is due first, with its place; of several due together the one of the first
prompt. -/
def earliest? : List (Task Hook) → Option (Nat × Task Hook)
  | [] => none
  | t :: rest =>
    match earliest? rest with
    | none => some (0, t)
    | some (place, u) => if t.due ≤ u.due then some (0, t) else some (place + 1, u)

/-- When the next hook completes. -/
def nextDue? (w : Worker Hook) : Option Nat :=
  if w.stopped then none else (earliest? w.running).map (·.2.due)

/-- The completion that is due by a time, if there is one. -/
def completion? (w : Worker Hook) (now : Nat) : Option (Nat × Bool) :=
  match earliest? w.running with
  | some (place, t) => if t.due ≤ now then some (place, t.hook.succeeds) else none
  | none => none

end Worker

end Invigilation
