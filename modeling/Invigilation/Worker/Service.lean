import Invigilation.Link
import Invigilation.Worker.Basic

/-!
# A worker at its link

A service is a worker that receives its messages from a link and posts its responses there. It stops
when the prompts have ended, or when it is cut off.

- `Service`, `Service.Move`, `Service.step`: the moves in any order.
- `Service.next?`: the move that is due at a time, when the worker never lags behind.
-/

namespace Invigilation

/-- A worker and its link to the host. -/
structure Service (η : Type) where
  link : Link
  worker : Worker η

namespace Service

/-- What the worker can do at its link. -/
inductive Move where
  /-- It begins. -/
  | start
  /-- It takes the next message. -/
  | receive (now : Nat)
  /-- A hook completes. -/
  | complete (place : Nat) (succeeds : Bool)
  /-- It posts the next response. -/
  | post
  /-- It stops, since no further message can come. -/
  | retire
  /-- It is cut off, perhaps before it has begun. -/
  | abort
  deriving DecidableEq, Repr

variable {η : Type}

/-- Whether a response that is posted now leaves the worker. -/
def canPost (l : Link) : Bool :=
  l.replies.closed || l.replies.hasRoom

/-- The worker's part of a move, if the move can happen. -/
def workerMove? (s : Service η) : Move → Option Worker.Move
  | .start => some .start
  | .receive now => s.link.prompts.queue.head?.map fun m => .receive now m
  | .complete place succeeds => some (.complete place succeeds)
  | .post => if canPost s.link then some (.post (!s.link.replies.closed)) else none
  | .retire => if s.worker.isLive && s.link.prompts.isEnded then some .stop else none
  | .abort => some .stop

/-- The steps at the link that belong to a move of the worker. -/
def farSteps (w : Worker η) : Worker.Move → List Link.FarStep
  | .start => []
  | .receive _ _ => [.takePrompt]
  | .complete _ _ => []
  | .post _ => (w.ready.head?.map fun p => .reply (.response p)).toList
  | .stop => [.closeReplies, .closePrompts]

/-- What a move does at the link. -/
def effects (s : Service η) (m : Move) : List Link.FarStep :=
  match s.workerMove? m with
  | some move => if s.worker.admits move then farSteps s.worker move else []
  | none => []

/-- What a move does to the worker. -/
def work (s : Service η) (m : Move) : Worker η × List Worker.Event :=
  match s.workerMove? m with
  | some move => s.worker.step move
  | none => (s.worker, [])

/-- One move. -/
def step (s : Service η) (m : Move) : Service η × List Worker.Event :=
  (⟨s.link.farAll (s.effects m), (s.work m).1⟩, (s.work m).2)

/-- The move that is due at a time: the beginning, then messages, then hooks in the order in which
they are due, then responses, and the end last. -/
def next? (s : Service Hook) (now : Nat) : Option Move :=
  if s.worker.stopped then none
  else if !s.worker.started then some .start
  else if !s.link.prompts.queue.isEmpty then some (.receive now)
  else
    match s.worker.completion? now with
    | some (place, succeeds) => some (.complete place succeeds)
    | none =>
      if !s.worker.ready.isEmpty && canPost s.link then some .post
      else if s.link.prompts.isEnded then some .retire
      else none

/-- How many moves are certainly enough for what is at hand. -/
def backlog (s : Service η) : Nat :=
  3 * s.link.prompts.queue.length + 2 * s.worker.running.length + s.worker.ready.length + 2

end Service

end Invigilation
