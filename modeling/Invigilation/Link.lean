import Invigilation.Channel
import Invigilation.Message.Basic

/-!
# The link between a host and a worker

Two channels join a host and a worker: prompts go out, replies come in. This module has the worker's
side of them; a host holds its side through a port.

- `Link`: the two channels.
- `Link.FarStep`: what the worker's side can do.
- `Link.far`: its effect, with what the worker's side learns.
-/

namespace Invigilation

/-- The two channels between a host and a worker. -/
structure Link where
  prompts : Channel HostMessage
  replies : Channel WorkerMessage
  deriving DecidableEq

namespace Link

/-- How many messages wait at most in either direction, between a host and a worker it spawned. -/
def capacity : Nat := 32

/-- A link on which nothing has happened. -/
def fresh (capacity : Nat) : Link :=
  ⟨{ capacity }, { capacity }⟩

/-- What the worker's side can do. -/
inductive FarStep where
  | reply (m : WorkerMessage)
  | takePrompt
  /-- The worker will send no more. -/
  | closeReplies
  /-- The worker will read no more. -/
  | closePrompts
  deriving DecidableEq, Repr

/-- What the worker's side learns from a step. -/
inductive FarAnswer where
  /-- Whether a reply was queued. -/
  | accepted (queued : Bool)
  | taken (m : HostMessage)
  /-- No prompt waits. -/
  | empty
  /-- No prompt waits, and the host is gone. -/
  | disconnected
  /-- The worker's side has closed the channel before. -/
  | closed
  | done
  deriving DecidableEq

/-- One step of the worker's side. -/
def far (l : Link) : FarStep → Link × FarAnswer
  | .reply m =>
    if l.replies.senderGone then (l, .closed)
    else
      let (replies, outcome) := l.replies.send m
      ({ l with replies }, .accepted (outcome = .sent))
  | .takePrompt =>
    if l.prompts.closed then (l, .closed)
    else
      match l.prompts.receive with
      | (prompts, .item m) => ({ l with prompts }, .taken m)
      | (_, .waiting) => (l, .empty)
      | (_, .ended) => (l, .disconnected)
  | .closeReplies => ({ l with replies := l.replies.leave }, .done)
  | .closePrompts => ({ l with prompts := l.prompts.discard }, .done)

/-- Several steps of the worker's side, one after the other. -/
def farAll (l : Link) (steps : List FarStep) : Link :=
  steps.foldl (fun l f => (l.far f).1) l

end Link

end Invigilation
