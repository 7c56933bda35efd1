import Invigilation.Session.Basic

/-!
# Workers that follow a script

A script says what the worker's side of a session does, and when. Playing it against a session gives
the moves of the run in which the host never lags behind: it rests only when it can do nothing more
at the time.

- `Script`: what the worker does before the host gets to run, and afterwards.
- `Script.play`: the moves of a session with such a worker.
-/

namespace Invigilation

namespace Session

/-- How many turns of the host are certainly enough to bring it to rest. -/
def backlog (s : Session) : Nat :=
  match s.phase with
  | .live p (.posting pending) => pending.length + p.replies.queue.length + 2
  | .live p (.awaiting _) => p.replies.queue.length + 1
  | _ => 0

/-- The host's turns until it rests. -/
def settling (s : Session) (now : Nat) : List Move :=
  List.replicate s.backlog (.host now)

/-- The wait of a session in which nothing more happens: until the deadline, if it comes within the
caller's patience, else until that is exhausted. -/
def expiring (s : Session) (patience : Nat) : List Move :=
  if s.isOver then []
  else
    match s.deadline? with
    | some d => if d ≤ patience then [.host d] else [.abandon patience]
    | none => [.abandon patience]

end Session

namespace Script

/-- One step of a script. -/
inductive Step where
  | act (step : Link.FarStep)
  | wait (duration : Nat)
  deriving DecidableEq, Repr

end Script

/-- What a worker does in a session. -/
structure Script where
  /-- What it has done by the time the host gets to run. -/
  upfront : List Link.FarStep := []
  steps : List Script.Step := []
  deriving DecidableEq, Repr

namespace Script

open Session (Move)

/-- The moves of a session from a time on. The worker stops with the session. -/
def playSteps (patience : Nat) (s : Session) (now : Nat) : List Step → List Move
  | [] => s.expiring patience
  | step :: rest =>
    if s.isOver then []
    else
      match step with
      | .act f =>
        let acting := .far f :: (s.step (.far f)).1.settling now
        acting ++ playSteps patience (s.run acting).1 now rest
      | .wait duration =>
        let later := now + duration
        if s.deadline?.any (· ≤ later) || patience < later then s.expiring patience
        else playSteps patience s later rest

/-- The moves of a session that was opened at time zero. -/
def play (script : Script) (patience : Nat) (s : Session) : List Move :=
  let acting := script.upfront.map .far
  let opening := acting ++ (s.run acting).1.settling 0
  opening ++ playSteps patience (s.run opening).1 0 script.steps

end Script

end Invigilation
