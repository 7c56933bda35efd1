import Invigilation.Message.Pump
import Invigilation.Worker.Service

/-!
# A worker on a pair of byte streams

A line worker reads its messages as lines and writes its responses as lines. Between the streams and
the worker stand the two channels of a link: a reader puts messages into the one, a writer takes
responses from the other. The worker has returned when its loop has stopped and the writer is done.

- `LineWorker`, `LineWorker.Move`, `LineWorker.step`: reader, worker and writer in any order.
- `LineWorker.settle`, `LineWorker.advance`: runs in which nobody lags behind.
-/

namespace Invigilation

open Text (Bytes)

/-- A worker with its reader and writer. -/
structure LineWorker (η : Type) where
  reader : Lines.Reader HostMessage := {}
  service : Service η
  writer : Lines.Writer := {}

namespace LineWorker

/-- What can happen. -/
inductive Move where
  /-- Bytes arrive. -/
  | feed (bytes : Bytes)
  /-- The input ends. -/
  | endInput
  /-- The reader puts its next message into the channel, or leaves when it will have none. -/
  | forward
  | work (move : Service.Move)
  /-- The writer takes the next response and writes it, or is done when there will be none. -/
  | write
  /-- Nobody reads the output any more. -/
  | closeOutput
  deriving DecidableEq

/-- What is seen of a move. -/
inductive Event where
  | worker (event : Worker.Event)
  /-- A line was written. -/
  | wrote (m : WorkerMessage)
  deriving DecidableEq

variable {η : Type}

/-- A line worker that has not begun. -/
def fresh (factory : Factory η) : LineWorker η :=
  { service := ⟨.fresh Link.capacity, { factory }⟩ }

/-- Whether the worker has returned. -/
def isFinished (w : LineWorker η) : Bool :=
  w.service.worker.stopped && w.writer.isDone

/-- The reader's turn. -/
def forward (w : LineWorker η) : LineWorker η :=
  let (reader, prompts) := w.reader.forward w.service.link.prompts
  { w with reader, service := { w.service with link := { w.service.link with prompts } } }

/-- The writer's turn. -/
def write (w : LineWorker η) : LineWorker η × List Event :=
  let (writer, replies, written) := w.writer.write w.service.link.replies
  ({ w with writer, service := { w.service with link := { w.service.link with replies } } },
    written.toList.map .wrote)

/-- One move. -/
def step (w : LineWorker η) : Move → LineWorker η × List Event
  | .feed bytes => ({ w with reader := w.reader.feed HostMessage.decode? bytes }, [])
  | .endInput => ({ w with reader := w.reader.finish HostMessage.decode? }, [])
  | .forward => (w.forward, [])
  | .work m =>
    let (service, events) := w.service.step m
    ({ w with service }, events.map .worker)
  | .write => w.write
  | .closeOutput => ({ w with writer := { w.writer with outputOpen := false } }, [])

/-- A run of moves. -/
def run (w : LineWorker η) : List Move → LineWorker η × List Event
  | [] => (w, [])
  | m :: rest =>
    let (w, events) := w.step m
    let (w, later) := w.run rest
    (w, events ++ later)

/-- The move that is due at a time. -/
def next? (w : LineWorker Hook) (now : Nat) : Option Move :=
  let writing := if w.writer.canWrite w.service.link.replies then some .write else none
  if w.service.worker.stopped then writing
  else if w.reader.canForward w.service.link.prompts then some .forward
  else
    match w.service.next? now with
    | some m => some (.work m)
    | none => writing

/-- How many moves are certainly enough for what is at hand. -/
def backlog (w : LineWorker η) : Nat :=
  6 * w.reader.waiting.length + 2 * w.service.backlog + w.service.link.replies.queue.length + 4

/-- At most `fuel` due moves. -/
def settleWithin : (fuel : Nat) → LineWorker Hook → (now : Nat) →
    LineWorker Hook × List Event
  | 0, w, _ => (w, [])
  | fuel + 1, w, now =>
    match w.next? now with
    | none => (w, [])
    | some m =>
      let (w, events) := w.step m
      let (w, later) := settleWithin fuel w now
      (w, events ++ later)

/-- All due moves. -/
def settle (w : LineWorker Hook) (now : Nat) : LineWorker Hook × List Event :=
  settleWithin w.backlog w now

/-- A move and all that it makes due. -/
def stepSettled (w : LineWorker Hook) (now : Nat) (m : Move) : LineWorker Hook × List Event :=
  let (w, events) := w.step m
  let (w, later) := w.settle now
  (w, events ++ later)

/-- The moves until a time, each when it is due, for at most `fuel` times at which hooks are due. -/
def advanceWithin : (fuel : Nat) → LineWorker Hook → (now later : Nat) →
    LineWorker Hook × List Event
  | 0, w, _, later => w.settle later
  | fuel + 1, w, now, later =>
    match w.service.worker.nextDue? with
    | some due =>
      if due ≤ later then
        let (w, events) := w.settle (max now due)
        let (w, more) := advanceWithin fuel w (max now due) later
        (w, events ++ more)
      else w.settle later
    | none => w.settle later

/-- The moves from one time to a later one. -/
def advance (w : LineWorker Hook) (now later : Nat) : LineWorker Hook × List Event :=
  advanceWithin w.service.worker.running.length w now later

/-- The lines that were written. -/
def outputOf (events : List Event) : Bytes :=
  Lines.write WorkerMessage.wire (events.filterMap fun
    | .wrote m => some m
    | .worker _ => none)

/-- How many lines were written. -/
def countWritten (events : List Event) : Nat :=
  events.countP fun
    | .wrote _ => true
    | .worker _ => false

/-- Lets time pass from one due hook to the next until `lines` lines were written, for at most
`fuel` times. -/
def awaitWithin (lines : Nat) : (fuel : Nat) → LineWorker Hook → (now written : Nat) →
    LineWorker Hook × Nat × List Event
  | 0, w, now, _ => (w, now, [])
  | fuel + 1, w, now, written =>
    match if lines ≤ written then none else w.service.worker.nextDue? with
    | none => (w, now, [])
    | some due =>
      let later := max now due
      let (w, events) := w.settle later
      let (w, last, more) := awaitWithin lines fuel w later (written + countWritten events)
      (w, last, events ++ more)

/-- A whole run on an input that is there at once and ends when a number of lines was written. -/
def serveUntil (factory : Factory Hook) (input : Bytes) (lines : Nat) : List Event :=
  let (w, first) := (fresh factory).stepSettled 0 (.feed input)
  let (w, now, later) := awaitWithin lines w.service.worker.running.length w 0 (countWritten first)
  let (_, last) := w.stepSettled now .endInput
  first ++ later ++ last

end LineWorker

end Invigilation
