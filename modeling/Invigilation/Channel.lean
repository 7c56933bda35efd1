/-!
# Bounded channels

A channel is a queue between a sender and a receiver, either of which can leave. Items that were
put before a side left can still be taken, unless the receiver gave the queue up as well.

- `Channel`: the queue, its bound, and who has left.
- `Channel.send`, `Channel.receive`: one attempt of either side, with what came of it.
- `Channel.leave`, `Channel.close`, `Channel.discard`: the ways in which a side leaves.
-/

namespace Invigilation

/-- A queue between a sender and a receiver. -/
structure Channel (α : Type) where
  /-- How many items wait at most. -/
  capacity : Nat
  queue : List α := []
  /-- The sender will put no more. -/
  senderGone : Bool := false
  /-- The receiver admits no more. -/
  closed : Bool := false
  deriving DecidableEq, Repr

namespace Channel

variable {α : Type}

/-- What comes of one attempt to send. -/
inductive Sending where
  | sent
  /-- The queue is full. -/
  | waiting
  /-- The receiver has left. -/
  | refused
  deriving DecidableEq, Repr

/-- What comes of one attempt to receive. -/
inductive Receiving (α : Type) where
  | item (a : α)
  /-- The queue is empty, and more may come. -/
  | waiting
  /-- The queue is empty, and nothing more can come. -/
  | ended
  deriving DecidableEq, Repr

/-- Whether another item fits. -/
def hasRoom (c : Channel α) : Bool :=
  c.queue.length < c.capacity

/-- Whether nothing more can be received. -/
def isEnded (c : Channel α) : Bool :=
  c.queue.isEmpty && (c.senderGone || c.closed)

/-- The sender tries to put an item. -/
def send (c : Channel α) (a : α) : Channel α × Sending :=
  if c.closed then (c, .refused)
  else if c.hasRoom then ({ c with queue := c.queue ++ [a] }, .sent)
  else (c, .waiting)

/-- The receiver tries to take an item. -/
def receive (c : Channel α) : Channel α × Receiving α :=
  match c.queue with
  | a :: rest => ({ c with queue := rest }, .item a)
  | [] => (c, if c.senderGone || c.closed then .ended else .waiting)

/-- The sender leaves. -/
def leave (c : Channel α) : Channel α :=
  { c with senderGone := true }

/-- The receiver admits no more, but still takes what is queued. -/
def close (c : Channel α) : Channel α :=
  { c with closed := true }

/-- The receiver leaves, and what is queued is lost. -/
def discard (c : Channel α) : Channel α :=
  { c with closed := true, queue := [] }

end Channel

end Invigilation
