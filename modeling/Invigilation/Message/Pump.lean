import Invigilation.Channel
import Invigilation.Message.Lines

/-!
# Between byte streams and channels

A reader puts the messages of a byte stream into a channel, and a writer takes messages from a
channel and writes their lines. Each does one thing at a time, and waits while the channel is full
or empty.

- `Lines.Reader`: reading, and what was read but does not fit into the channel yet.
- `Lines.Writer`: writing, until the messages end or nobody reads what is written.
-/

namespace Invigilation.Lines

open Text (Bytes)

variable {α : Type}

/-- What a reader has at hand. -/
structure Reader (α : Type) where
  inlet : Inlet := {}
  /-- The messages that were read and do not stand in the channel yet. -/
  waiting : List α := []
  deriving DecidableEq, Repr

namespace Reader

/-- Bytes arrive. -/
def feed (decode : Bytes → Option α) (r : Reader α) (bytes : Bytes) : Reader α :=
  let (inlet, messages) := r.inlet.feed decode bytes
  ⟨inlet, r.waiting ++ messages⟩

/-- The input ends. -/
def finish (decode : Bytes → Option α) (r : Reader α) : Reader α :=
  let (inlet, messages) := r.inlet.finish decode
  ⟨inlet, r.waiting ++ messages⟩

/-- The reader puts its next message into the channel, or leaves when it will have none. It stops
reading when nobody takes its messages. -/
def forward (r : Reader α) (c : Channel α) : Reader α × Channel α :=
  match r.waiting with
  | [] => (r, if r.inlet.stopped then c.leave else c)
  | m :: rest =>
    match c.send m with
    | (c, .sent) => ({ r with waiting := rest }, c)
    | (c, .waiting) => (r, c)
    | (c, .refused) => (⟨{ r.inlet with stopped := true }, []⟩, c.leave)

/-- Whether the reader's turn would change anything. -/
def canForward (r : Reader α) (c : Channel α) : Bool :=
  if r.waiting.isEmpty then r.inlet.stopped && !c.senderGone else c.closed || c.hasRoom

end Reader

/-- How far a writer is. -/
structure Writer where
  /-- Somebody still reads what is written. -/
  outputOpen : Bool := true
  isDone : Bool := false
  deriving DecidableEq, Repr

namespace Writer

/-- The writer takes the next message and gives it to be written, or is done when there will be
none. A message for which nobody is left is lost, and ends the writing. -/
def write (w : Writer) (c : Channel α) : Writer × Channel α × Option α :=
  if w.isDone then (w, c, none)
  else
    match c.receive with
    | (c, .item m) =>
      if w.outputOpen then (w, c, some m) else ({ w with isDone := true }, c.discard, none)
    | (c, .waiting) => (w, c, none)
    | (c, .ended) => ({ w with isDone := true }, c.discard, none)

/-- Whether the writer's turn would change anything. -/
def canWrite (w : Writer) (c : Channel α) : Bool :=
  !w.isDone && (!c.queue.isEmpty || c.isEnded)

end Writer

end Invigilation.Lines
