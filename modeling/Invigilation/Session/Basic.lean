import Invigilation.Port

/-!
# Sessions with a worker

In a session the host spawns a worker, hands it the configuration if there is one, then the prompt,
and waits for the response paired with the prompt. Other replies are passed over. One deadline spans
the whole wait. Whatever ends the session, be it the response, a failure, the deadline or the caller
who loses interest, the worker is ended with it.

A session advances by moves. Some are the host's, which gets to run now and then and each time does
one thing; the others are the worker's, or come from the world around. Every order of moves is a
possible run, and a move that cannot happen in a state changes nothing. Times are in milliseconds.

- `RoundTrip`: what a session is about.
- `Session`, `Session.Move`, `Session.step`: the state, what can happen, and its effect.
- `Session.Event`: what is seen of a session from outside.
-/

namespace Invigilation

/-- What a host asks of a worker in one session. -/
structure RoundTrip where
  exchange : Exchange
  /-- How long to wait for the response. -/
  timeout : Option Nat := none
  /-- The options that go ahead of the prompt. -/
  config : Option Json := none
  deriving DecidableEq

/-- The messages for the worker, in order; the type to be sent must be a prompt. -/
def RoundTrip.messages (r : RoundTrip) : Except SessionError (List HostMessage) :=
  match Prompt.ofMessageType? r.exchange.prompt with
  | some p => .ok (r.config.toList.map .config ++ [.prompt p])
  | none => .error (.invalidPrompt r.exchange.prompt)

namespace Session

/-- How far the host is with a worker it spawned. -/
inductive Progress where
  /-- These messages are still to be sent. -/
  | posting (pending : List HostMessage)
  /-- The response is awaited until the deadline. -/
  | awaiting (deadline : Option Nat)
  deriving DecidableEq

/-- How a session ended. -/
inductive Outcome where
  | answered
  | failed (e : SessionError)
  /-- The caller lost interest before there was a result. -/
  | abandoned
  deriving DecidableEq, Repr

/-- Where a session stands. -/
inductive Phase where
  | unopened
  | live (port : Port) (progress : Progress)
  /-- It ended at a time; the port is the one it had, if a worker was spawned. -/
  | over (port : Option Port) (time : Nat) (outcome : Outcome)
  deriving DecidableEq

/-- What is seen of a session. -/
inductive Event where
  /-- The host asked for a worker, and got one or not. -/
  | spawned (entryPoint : String) (obtained : Bool)
  /-- A message was handed to the worker. -/
  | handed (m : HostMessage)
  /-- The awaited response was received. -/
  | matched (type : MessageType)
  /-- The worker was ended. -/
  | terminated
  deriving DecidableEq

/-- What can happen to a session. -/
inductive Move where
  /-- The session is opened, and this comes of spawning: a failure, or the link to the worker. -/
  | opening (now : Nat) (spawning : Except SessionError Link)
  /-- The host gets to run. -/
  | host (now : Nat)
  /-- The worker acts. -/
  | far (step : Link.FarStep)
  /-- The caller loses interest. -/
  | abandon (now : Nat)

end Session

/-- A session with a worker. -/
structure Session where
  request : RoundTrip
  entryPoint : String
  phase : Session.Phase := .unopened
  deriving DecidableEq

namespace Session

/-- How the session ended, and when. -/
def result? (s : Session) : Option (Nat × Outcome) :=
  match s.phase with
  | .over _ time outcome => some (time, outcome)
  | _ => none

/-- Whether the session has ended. -/
def isOver (s : Session) : Bool :=
  s.result?.isSome

/-- The port of the session, once a worker was spawned. -/
def port? (s : Session) : Option Port :=
  match s.phase with
  | .unopened => none
  | .live port _ => some port
  | .over port _ _ => port

/-- When the wait for the response ends, if it has begun and has an end. -/
def deadline? (s : Session) : Option Nat :=
  match s.phase with
  | .live _ (.awaiting deadline) => deadline
  | _ => none

/-- What is seen when a port ends its worker, which it does at most once. -/
def ending (p : Port) : List Event :=
  if p.armed then [.terminated] else []

/-- The end of a session that has a port: the port is given up, which ends the worker unless that
has happened. -/
def finish (p : Port) (now : Nat) (outcome : Outcome) : Phase × List Event :=
  (.over (some p.drop) now outcome, ending p)

/-- The end of a wait: the worker is ended, and then the port given up. -/
def conclude (p : Port) (now : Nat) (outcome : Outcome) : Phase × List Event :=
  let (phase, events) := finish p.terminate now outcome
  (phase, ending p ++ events)

/-- Opens the session. The worker is asked for only if there is a prompt for it. -/
def enter (r : RoundTrip) (entryPoint : String) (now : Nat) (spawning : Except SessionError Link) :
    Phase × List Event :=
  match r.messages with
  | .error e => (.over none now (.failed e), [])
  | .ok messages =>
    match spawning with
    | .error e => (.over none now (.failed e), [.spawned entryPoint false])
    | .ok link => (.live (.ofLink link) (.posting messages), [.spawned entryPoint true])

/-- What the host does next while messages are to be sent. -/
def post (r : RoundTrip) (p : Port) (now : Nat) : List HostMessage → Phase × List Event
  | [] => (.live p (.awaiting (r.timeout.map (now + ·))), [])
  | m :: rest =>
    match p.send m with
    | (p, .sent) => (.live p (.posting rest), [.handed m])
    | (p, .refused e) => finish p now (.failed e)
    | (p, _) => (.live p (.posting (m :: rest)), [])

/-- What the host does next while it waits. Queued replies come before the news that the worker
left, and both before the deadline. -/
def await (r : RoundTrip) (p : Port) (now : Nat) (deadline : Option Nat) : Phase × List Event :=
  match p.receive with
  | (p, .received m) =>
    if m.messageType? = some r.exchange.response then
      let (phase, events) := conclude p now .answered
      (phase, .matched r.exchange.response :: events)
    else (.live p (.awaiting deadline), [])
  | (p, .ended) => conclude p now (.failed (.disconnected r.exchange.response))
  | (p, _) =>
    if deadline.any (· ≤ now) then conclude p now (.failed (.timedOut r.exchange.response))
    else (.live p (.awaiting deadline), [])

/-- The phase after a move, and what is seen of it. -/
def stepPhase (r : RoundTrip) (entryPoint : String) : Phase → Move → Phase × List Event
  | .unopened, .opening now spawning => enter r entryPoint now spawning
  | .unopened, .abandon now => (.over none now .abandoned, [])
  | .unopened, _ => (.unopened, [])
  | .live p (.posting pending), .host now => post r p now pending
  | .live p (.awaiting deadline), .host now => await r p now deadline
  | .live p progress, .far f => (.live (p.far f).1 progress, [])
  | .live p _, .abandon now => finish p now .abandoned
  | .live p progress, .opening _ _ => (.live p progress, [])
  | .over (some p) time outcome, .far f => (.over (some (p.far f).1) time outcome, [])
  | .over port time outcome, _ => (.over port time outcome, [])

/-- One move, and what is seen of it. -/
def step (s : Session) (m : Move) : Session × List Event :=
  let (phase, events) := stepPhase s.request s.entryPoint s.phase m
  ({ s with phase }, events)

/-- A run of moves, and what is seen of it. -/
def run (s : Session) : List Move → Session × List Event
  | [] => (s, [])
  | m :: rest =>
    let (s, events) := s.step m
    let (s, later) := s.run rest
    (s, events ++ later)

end Session

end Invigilation
