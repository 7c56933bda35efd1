import Invigilation.Session.Spawner
import Invigilation.Worker.Registry
import Invigilation.Worker.Service

/-!
# Sessions with a worker in the host's process

Host and worker share the link of the session's port and move in any order. The worker is cut off
once the session has ended it.

- `Hosted`, `Hosted.Move`, `Hosted.step`: the two machines together. Each move of the worker is seen
  by the session as the worker's steps at the link.
- `Hosted.play`: the moves of the run in which neither lags behind.
- `Registry.spawner`: the spawner of registered workers.
-/

namespace Invigilation

/-- A session and its worker. -/
structure Hosted (η : Type) where
  session : Session
  worker : Worker η

namespace Hosted

/-- A move of either machine. -/
inductive Move where
  /-- A move of the session; the worker's steps at the link are no moves of their own. -/
  | session (move : Session.Move)
  | work (move : Service.Move)

/-- What is seen of a move. -/
inductive Event where
  | session (event : Session.Event)
  | worker (event : Worker.Event)
  deriving DecidableEq

variable {η : Type}

/-- The worker at the link of the session, if a move of the worker can happen. -/
def service? (h : Hosted η) (m : Service.Move) : Option (Service η) :=
  h.session.port?.bind fun p =>
    if m = .abort ∧ !p.isTerminated then none else some ⟨p.toLink, h.worker⟩

/-- What a move means to the session. -/
def sessionMoves (h : Hosted η) : Move → List Session.Move
  | .session (.far _) => []
  | .session m => [m]
  | .work m =>
    match h.service? m with
    | some service => (service.effects m).map .far
    | none => []

/-- What a move means to the worker. -/
def workerAfter (h : Hosted η) : Move → Worker η × List Worker.Event
  | .session _ => (h.worker, [])
  | .work m =>
    match h.service? m with
    | some service => service.work m
    | none => (h.worker, [])

/-- One move. -/
def step (h : Hosted η) (m : Move) : Hosted η × List Event :=
  let (session, seen) := h.session.run (h.sessionMoves m)
  let (worker, done) := h.workerAfter m
  (⟨session, worker⟩, seen.map .session ++ done.map .worker)

/-- A run of moves. -/
def run (h : Hosted η) : List Move → Hosted η × List Event
  | [] => (h, [])
  | m :: rest =>
    let (h, events) := h.step m
    let (h, later) := h.run rest
    (h, events ++ later)

/-- The worker's move that is due at a time. -/
def next? (h : Hosted Hook) (now : Nat) : Option Move :=
  h.session.port?.bind fun p => ((⟨p.toLink, h.worker⟩ : Service Hook).next? now).map .work

/-- The moves of the session from a time on, with at most `fuel` moves of the worker and times at
which it has something to do. -/
def playWithin (patience : Nat) : (fuel : Nat) → Hosted Hook → (now : Nat) → List Session.Move
  | 0, h, _ => h.session.expiring patience
  | fuel + 1, h, now =>
    let turns := h.session.settling now
    let h := { h with session := (h.session.run turns).1 }
    if h.session.isOver then turns
    else
      match h.next? now with
      | some m => turns ++ h.sessionMoves m ++ playWithin patience fuel (h.step m).1 now
      | none =>
        let awaited := h.worker.nextDue?.filter fun due =>
          due ≤ patience && h.session.deadline?.all (due < ·)
        match awaited with
        | some due => turns ++ playWithin patience fuel h due
        | none => turns ++ h.session.expiring patience

/-- The moves of a session with a worker that was just spawned. -/
def play (factory : Factory Hook) (patience : Nat) (s : Session) : List Session.Move :=
  playWithin patience (8 * (s.backlog + 1)) ⟨s, { factory }⟩ 0

end Hosted

/-- The spawner of registered workers. -/
def Registry.spawner (r : Registry Hook) : Spawner := fun entryPoint =>
  (r.spawn entryPoint).map fun factory => ⟨Link.capacity, Hosted.play factory⟩

end Invigilation
