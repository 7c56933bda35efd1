import Invigilation.Session.Script

/-!
# Where workers come from

A spawner starts the worker with a given entry point, or says why it cannot. What it spawns is known
by its far end: the room of the channels and the course a session takes with it.

- `FarEnd`, `Spawner`: spawned workers, and what spawns them.
- `Session.course`: the moves of a session with a worker of a spawner.
-/

namespace Invigilation

/-- A spawned worker, as a session meets it. -/
structure FarEnd where
  /-- How many messages wait at most in either direction. -/
  capacity : Nat
  /-- The moves that follow the opening of a session at time zero, for a caller of some patience. -/
  play : (patience : Nat) → Session → List Session.Move

/-- What spawns the worker with an entry point. -/
abbrev Spawner := (entryPoint : String) → Except SessionError FarEnd

/-- A worker that follows a script, on channels of some room. -/
def Script.farEnd (script : Script) (capacity : Nat) : FarEnd :=
  ⟨capacity, script.play⟩

/-- The moves of a session with a worker of a spawner, from its opening at time zero to its end. -/
def Session.course (s : Session) (spawner : Spawner) (patience : Nat) : List Session.Move :=
  match spawner s.entryPoint with
  | .error e => [.opening 0 (.error e)]
  | .ok far =>
    let opening := Session.Move.opening 0 (.ok (.fresh far.capacity))
    opening :: far.play patience (s.step opening).1

end Invigilation
