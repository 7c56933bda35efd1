import Invigilation.Link
import Invigilation.Session.Error

/-!
# The host's port to a worker

A port is the host's side of a link, together with the means to end the worker. Ending it happens
once, when the host asks for it or gives the port up, whichever comes first. Afterwards no further
reply is admitted, but those that were queued can still be read, and prompts can still be sent.

- `Port`: the state of the host's side.
- `Port.HostStep`, `Port.host`: what the host can do with it.
- `Port.step`: the steps of both sides.
-/

namespace Invigilation

/-- The host's side of a link. -/
structure Port extends Link where
  /-- The worker has not been ended yet. -/
  armed : Bool := true
  /-- How often the worker was ended. -/
  terminations : Nat := 0
  /-- The host has not given the port up. -/
  held : Bool := true
  deriving DecidableEq

namespace Port

/-- The port of a host that was just given its side of a link. -/
def ofLink (l : Link) : Port :=
  { l with }

/-- A port to a worker that was just spawned. -/
def fresh (capacity : Nat) : Port :=
  ofLink (.fresh capacity)

/-- What the host can do. -/
inductive HostStep where
  | send (m : HostMessage)
  | receive
  | terminate
  /-- The host gives the port up. -/
  | drop
  deriving DecidableEq

/-- What the host learns from a step. -/
inductive HostAnswer where
  | sent
  | refused (e : SessionError)
  | received (m : WorkerMessage)
  /-- No reply waits, and none can come. -/
  | ended
  /-- The step cannot be finished yet. -/
  | waiting
  | done
  /-- The port was given up before. -/
  | noPort
  deriving DecidableEq

/-- Whether the worker was ended. -/
def isTerminated (p : Port) : Bool :=
  !p.armed

/-- Ends the worker unless that has happened, and admits no further reply. -/
def terminate (p : Port) : Port :=
  let p := { p with replies := p.replies.close }
  if p.armed then { p with armed := false, terminations := p.terminations + 1 } else p

/-- Gives the port up, which ends the worker unless that has happened. -/
def drop (p : Port) : Port :=
  let p := p.terminate
  { p with prompts := p.prompts.leave, replies := p.replies.discard, held := false }

/-- Tries to send a message. -/
def send (p : Port) (m : HostMessage) : Port × HostAnswer :=
  match p.prompts.send m with
  | (prompts, .sent) => ({ p with prompts }, .sent)
  | (_, .waiting) => (p, .waiting)
  | (_, .refused) => (p, .refused (.sendFailed m.messageType?))

/-- Tries to receive a reply. -/
def receive (p : Port) : Port × HostAnswer :=
  match p.replies.receive with
  | (replies, .item m) => ({ p with replies }, .received m)
  | (_, .waiting) => (p, .waiting)
  | (_, .ended) => (p, .ended)

/-- One step of the host. -/
def host (p : Port) (step : HostStep) : Port × HostAnswer :=
  if !p.held then (p, .noPort)
  else
    match step with
    | .send m => p.send m
    | .receive => p.receive
    | .terminate => (p.terminate, .done)
    | .drop => (p.drop, .done)

/-- One step of the worker's side. -/
def far (p : Port) (step : Link.FarStep) : Port × Link.FarAnswer :=
  let (link, answer) := p.toLink.far step
  ({ p with toLink := link }, answer)

/-- A step of either side. -/
inductive Step where
  | host (step : HostStep)
  | far (step : Link.FarStep)
  deriving DecidableEq

/-- What either side learns from its step. -/
inductive Answer where
  | host (answer : HostAnswer)
  | far (answer : Link.FarAnswer)
  deriving DecidableEq

/-- One step. -/
def step (p : Port) : Step → Port × Answer
  | .host s => ((p.host s).1, .host (p.host s).2)
  | .far s => ((p.far s).1, .far (p.far s).2)

end Port

end Invigilation
