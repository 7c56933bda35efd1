import Invigilation.Port
import Invigilation.Worker.Service

/-!
# A worker beside its host

A worker that runs in the host's own process shares the link of the host's port. When the host ends
it, it is cut off.

- `Spawned`, `Spawned.Move`, `Spawned.step`: host and worker, in any order of moves.
- `Spawned.settle`, `Spawned.advance`: runs in which the worker never lags behind.
- `Spawned.collect`: the host reads all replies that wait.
-/

namespace Invigilation

/-- A host's port and the worker behind it. -/
structure Spawned (η : Type) where
  port : Port
  worker : Worker η

namespace Spawned

/-- A move of either side. -/
inductive Move where
  | host (step : Port.HostStep)
  | work (move : Service.Move)
  deriving DecidableEq

/-- What is seen of a move. -/
inductive Event where
  | host (answer : Port.HostAnswer)
  | worker (event : Worker.Event)
  deriving DecidableEq

variable {η : Type}

/-- A worker that was just spawned and has not begun. -/
def fresh (factory : Factory η) : Spawned η :=
  ⟨.fresh Link.capacity, { factory }⟩

/-- The worker at its link. -/
def service (s : Spawned η) : Service η :=
  ⟨s.port.toLink, s.worker⟩

/-- One move. The worker is cut off only when the host has ended it. -/
def step (s : Spawned η) : Move → Spawned η × List Event
  | .host h => ({ s with port := (s.port.host h).1 }, [.host (s.port.host h).2])
  | .work m =>
    if m = .abort ∧ !s.port.isTerminated then (s, [])
    else
      let (service, events) := s.service.step m
      (⟨{ s.port with toLink := service.link }, service.worker⟩, events.map .worker)

/-- A run of moves. -/
def run (s : Spawned η) : List Move → Spawned η × List Event
  | [] => (s, [])
  | m :: rest =>
    let (s, events) := s.step m
    let (s, later) := s.run rest
    (s, events ++ later)

/-- The host reads all replies that wait. -/
def collect (s : Spawned η) : Spawned η × List Event :=
  s.run (List.replicate s.port.replies.queue.length (.host .receive))

/-- The worker's move that is due at a time. -/
def next? (s : Spawned Hook) (now : Nat) : Option Move :=
  if s.port.isTerminated && !s.worker.stopped then some (.work .abort)
  else (s.service.next? now).map .work

/-- How many moves are certainly enough for what is at hand. -/
def backlog (s : Spawned η) : Nat :=
  s.service.backlog + 1

/-- At most `fuel` due moves. -/
def settleWithin : (fuel : Nat) → Spawned Hook → (now : Nat) → Spawned Hook × List Event
  | 0, s, _ => (s, [])
  | fuel + 1, s, now =>
    match s.next? now with
    | none => (s, [])
    | some m =>
      let (s, events) := s.step m
      let (s, later) := settleWithin fuel s now
      (s, events ++ later)

/-- All due moves. -/
def settle (s : Spawned Hook) (now : Nat) : Spawned Hook × List Event :=
  settleWithin s.backlog s now

/-- The moves until a time, each when it is due, for at most `fuel` times at which hooks are due. -/
def advanceWithin : (fuel : Nat) → Spawned Hook → (now later : Nat) →
    Spawned Hook × List Event
  | 0, s, _, later => s.settle later
  | fuel + 1, s, now, later =>
    match s.worker.nextDue? with
    | some due =>
      if due ≤ later then
        let (s, events) := s.settle (max now due)
        let (s, more) := advanceWithin fuel s (max now due) later
        (s, events ++ more)
      else s.settle later
    | none => s.settle later

/-- The moves from one time to a later one. -/
def advance (s : Spawned Hook) (now later : Nat) : Spawned Hook × List Event :=
  advanceWithin s.worker.running.length s now later

end Spawned

end Invigilation
