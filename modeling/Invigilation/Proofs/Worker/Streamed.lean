import Invigilation.Proofs.Message.Transit
import Invigilation.Proofs.Worker.Whole
import Invigilation.Worker.LineWorker

/-!
# A line worker at a text

A line worker reads a text that arrives in pieces, and writes to an output that stays open. Between
the text and the loop stand the reader and its channel, and neither loses a message: when the loop
finds that no more can come, it has received what the lines of the text spell.

- `LineWorker.Streamed`, `LineWorker.Streamed.turns`: a line worker and a text that arrives.
- `LineWorker.Inward`: what holds between the text and the messages that were received.
- `LineWorker.Inward.complete`: **at the end everything has been received**.
-/

namespace Invigilation

open Text (Bytes)
open Lines (Intake)
open Service (Dealing received)

namespace LineWorker

variable {η : Type} {factory : Factory η} {text : String}

/-! ## A text that arrives -/

/-- What is seen of the worker itself. -/
def workerEvents (events : List Event) : List Worker.Event :=
  events.filterMap fun
    | .worker e => some e
    | .wrote _ => none

/-- The messages whose lines were written. -/
def written (events : List Event) : List WorkerMessage :=
  events.filterMap fun
    | .wrote m => some m
    | .worker _ => none

theorem workerEvents_append (events later : List Event) :
    workerEvents (events ++ later) = workerEvents events ++ workerEvents later :=
  List.filterMap_append

theorem written_append (events later : List Event) :
    written (events ++ later) = written events ++ written later :=
  List.filterMap_append

/-- A line worker and the text at its input. -/
structure Streamed (η : Type) where
  worker : LineWorker η
  /-- The bytes of the text that have not arrived yet. -/
  coming : Bytes
  ended : Bool := false

/-- What can happen. The output stays open, and the worker is not cut off. -/
inductive Turn (η : Type) where
  /-- So many bytes arrive, or all that are left. -/
  | arrive (count : Nat)
  /-- The input ends, if everything has arrived. -/
  | finish
  | forward
  | work (m : Service.Move) (stays : m ≠ .abort)
  | write
  /-- The factory and its handlers change their answers. -/
  | refit (factory : Factory η)

namespace Streamed

/-- A line worker that has not begun, and a text of which nothing has arrived. -/
def start (factory : Factory η) (text : String) : Streamed η :=
  { worker := .fresh factory, coming := Text.toBytes text }

/-- The line worker makes a move. -/
def move (w : Streamed η) (m : Move) : Streamed η × List Event :=
  ({ w with worker := (w.worker.step m).1 }, (w.worker.step m).2)

/-- The factory of the worker from now on. -/
def refit (w : Streamed η) (factory : Factory η) : Streamed η :=
  { w with worker := { w.worker with service :=
    { w.worker.service with worker := { w.worker.service.worker with factory } } } }

/-- One turn, with what is seen. -/
def turn (w : Streamed η) : Turn η → Streamed η × List Event
  | .arrive count =>
    if w.ended then (w, [])
    else
      ({ w with
        worker := (w.worker.step (.feed (w.coming.take count))).1
        coming := w.coming.drop count }, [])
  | .finish =>
    if w.coming.isEmpty then
      ({ w with worker := (w.worker.step .endInput).1, ended := true }, [])
    else (w, [])
  | .forward => w.move .forward
  | .work m _ => w.move (.work m)
  | .write => w.move .write
  | .refit factory => (w.refit factory, [])

/-- A run of turns. -/
def turns (w : Streamed η) : List (Turn η) → Streamed η × List Event
  | [] => (w, [])
  | t :: rest =>
    let (w, seen) := w.turn t
    let (w, later) := w.turns rest
    (w, seen ++ later)

theorem turns_append (w : Streamed η) (ts later : List (Turn η)) :
    (w.turns (ts ++ later)).1 = ((w.turns ts).1.turns later).1 := by
  induction ts generalizing w with
  | nil => rfl
  | cons t rest ih => exact ih (w.turn t).1

/-- What happens at the input touches the reader alone. -/
theorem turn_input (w : Streamed η) {t : Turn η} (h : (∃ count, t = .arrive count) ∨ t = .finish) :
    (w.turn t).1.worker.service = w.worker.service ∧
      (w.turn t).1.worker.writer = w.worker.writer ∧ (w.turn t).2 = [] := by
  rcases h with ⟨count, rfl⟩ | rfl
  · unfold turn
    by_cases hended : w.ended = true <;> simp [hended, step]
  · unfold turn
    by_cases hcoming : w.coming.isEmpty = true <;> simp [hcoming, step]

/-- The reader, its channel and what the worker has received. -/
def intake (w : Streamed η) (inbox : List HostMessage) (input : Bytes) : Intake HostMessage :=
  ⟨w.worker.reader, w.worker.service.link.prompts, inbox, input, w.ended⟩

end Streamed

variable {w : Streamed η} {inbox : List HostMessage} {dealt : List (Dealing η)}

/-! ## From the text to the worker -/

/-- What holds between a text and the messages that the worker has received. -/
structure Inward (text : String) (w : Streamed η) (inbox : List HostMessage) : Prop where
  /-- The messages are heard from the bytes that have arrived. -/
  arrived : ∃ input, input ++ w.coming = Text.toBytes text ∧
    (w.intake inbox input).Faithful HostMessage.decode?
  whole : w.ended = true → w.coming = []
  room : w.worker.service.link.prompts.capacity = Link.capacity
  atEnd : w.worker.service.worker.stopped = true →
    inbox = Lines.spelled HostMessage.decode? text

theorem inward_start (factory : Factory η) (text : String) :
    Inward text (.start factory text) [] :=
  ⟨⟨[], rfl, Intake.faithful_fresh HostMessage.decode? Link.capacity⟩, nofun, rfl, nofun⟩

/-- What is heard of a text by now is the beginning of what its lines spell, and once all of it has
arrived, the whole. -/
theorem heard_of_arrived {input coming : Bytes} (h : input ++ coming = Text.toBytes text)
    (ended : Bool) (hwhole : ended = true → coming = []) :
    Lines.heard HostMessage.decode? (Lines.linesOf input ended) <+:
        Lines.spelled HostMessage.decode? text ∧
      (ended = true → Lines.heard HostMessage.decode? (Lines.linesOf input ended) =
        Lines.spelled HostMessage.decode? text) := by
  have hspelled : Lines.heard HostMessage.decode? (Lines.linesOf (Text.toBytes text) true) =
      Lines.spelled HostMessage.decode? text := Lines.heard_linesOf rfl text
  cases ended with
  | true =>
    rw [hwhole rfl, List.append_nil] at h
    rw [h, hspelled]
    exact ⟨List.prefix_refl _, fun _ => rfl⟩
  | false =>
    refine ⟨?_, nofun⟩
    rw [← hspelled, Lines.linesOf_true, ← h, Lines.linesOf_append, List.append_assoc]
    exact Lines.heard_mono _ _ _

theorem Inward.turn_arrive (h : Inward text w inbox) (count : Nat) :
    Inward text (w.turn (.arrive count)).1 inbox := by
  by_cases hended : w.ended = true
  · have hturn : w.turn (.arrive count) = (w, []) := if_pos hended
    rwa [hturn]
  have hturn : w.turn (.arrive count) =
      ({ w with
        worker := (w.worker.step (.feed (w.coming.take count))).1
        coming := w.coming.drop count }, []) := if_neg hended
  obtain ⟨⟨input, hinput, hfaithful⟩, -, room, atEnd⟩ := h
  rw [hturn]
  refine ⟨⟨input ++ w.coming.take count, ?_, ?_⟩, fun h => absurd h hended, room, atEnd⟩
  · rw [List.append_assoc]
    show input ++ (w.coming.take count ++ w.coming.drop count) = _
    rw [List.take_append_drop, hinput]
  · have hfed := hfaithful.step (.feed (w.coming.take count))
    have hstep : (w.intake inbox input).step HostMessage.decode? (.feed (w.coming.take count)) =
        { w.intake inbox input with
          reader := w.worker.reader.feed HostMessage.decode? (w.coming.take count)
          input := input ++ w.coming.take count } := if_neg hended
    rwa [hstep] at hfed

theorem Inward.turn_finish (h : Inward text w inbox) : Inward text (w.turn .finish).1 inbox := by
  by_cases hcoming : w.coming.isEmpty = true
  · have hturn : w.turn .finish =
        ({ w with worker := (w.worker.step .endInput).1, ended := true }, []) := if_pos hcoming
    obtain ⟨⟨input, hinput, hfaithful⟩, -, room, atEnd⟩ := h
    rw [hturn]
    exact ⟨⟨input, hinput, hfaithful.step .endInput⟩, fun _ => List.isEmpty_iff.mp hcoming, room,
      atEnd⟩
  · have hturn : w.turn .finish = (w, []) := if_neg hcoming
    rwa [hturn]

/-- What the reader does to its channel is what a host can do. -/
theorem forward_near (r : Lines.Reader HostMessage) (l : Link) :
    (r.forward l.prompts).2 = l.prompts ∨
      ∃ n : Link.NearStep, { l with prompts := (r.forward l.prompts).2 } = l.near n ∧
        (r.forward l.prompts).2.capacity = l.prompts.capacity := by
  cases hwaiting : r.waiting with
  | nil =>
    rw [Lines.Reader.forward_nil hwaiting]
    split
    · exact .inr ⟨.leave, rfl, rfl⟩
    · exact .inl rfl
  | cons m rest =>
    rw [Lines.Reader.forward_cons hwaiting]
    split
    · exact .inr ⟨.leave, rfl, rfl⟩
    · next hopen =>
      split
      · next hroom =>
        refine .inr ⟨.send m, ?_, rfl⟩
        simp [Link.near, Channel.send, hopen, hroom]
      · exact .inl rfl

theorem Inward.turn_forward (h : Inward text w inbox) : Inward text (w.turn .forward).1 inbox := by
  obtain ⟨⟨input, hinput, hfaithful⟩, whole, room, atEnd⟩ := h
  refine ⟨⟨input, hinput, hfaithful.forward⟩, whole, ?_, atEnd⟩
  show (w.worker.reader.forward w.worker.service.link.prompts).2.capacity = Link.capacity
  obtain hsame | ⟨-, -, hcapacity⟩ := forward_near w.worker.reader w.worker.service.link
  · rw [hsame, room]
  · rw [hcapacity, room]

/-- Once the worker finds that no message can come, it has received all that the text spells. -/
theorem Inward.complete (h : Inward text w inbox)
    (hopen : w.worker.service.link.prompts.closed = false)
    (hended : w.worker.service.link.prompts.isEnded = true) :
    inbox = Lines.spelled HostMessage.decode? text := by
  obtain ⟨⟨input, hinput, hfaithful⟩, whole, -, -⟩ := h
  obtain ⟨hall, hwhy⟩ := hfaithful.delivers.complete hopen hended
  have hover : w.ended = true := by
    -- every line that is complete is a text, so the reader has not stopped before the end
    by_contra hmore
    obtain hover | hbroken := hwhy
    · exact hmore hover
    · have hlines : (w.intake inbox input).lines = Lines.linesOf input false :=
        congrArg (Lines.linesOf input) (Bool.eq_false_iff.mpr hmore)
      rw [hlines, Lines.isText_linesOf_of_append hinput] at hbroken
      cases hbroken
  exact hall.trans ((heard_of_arrived hinput w.ended whole).2 hover)

/-- What touches neither the reader nor its channel keeps it. -/
theorem Inward.untouched (h : Inward text w inbox) {v : LineWorker η}
    (hreader : v.reader = w.worker.reader)
    (hprompts : v.service.link.prompts = w.worker.service.link.prompts)
    (hstopped : v.service.worker.stopped = w.worker.service.worker.stopped) :
    Inward text { w with worker := v } inbox := by
  obtain ⟨⟨input, hinput, hfaithful⟩, whole, room, atEnd⟩ := h
  refine ⟨⟨input, hinput, ?_⟩, whole, ?_, fun hs => atEnd (hstopped.symm.trans hs)⟩
  · unfold Streamed.intake
    rw [hreader, hprompts]
    exact hfaithful
  · rw [hprompts]
    exact room

/-- A move of the loop. -/
theorem Inward.turn_work (h : Inward text w (received dealt))
    (ends : Service.Open w.worker.service)
    (hsame : w.worker.service.worker.stopped = w.worker.service.link.prompts.closed)
    (m : Service.Move) (stays : m ≠ .abort) :
    Inward text (w.turn (.work m stays)).1
      (received (dealt ++ (w.worker.service.turn (.work m)).2.1)) := by
  obtain ⟨⟨input, hinput, hfaithful⟩, whole, room, atEnd⟩ := id h
  rw [Service.received_append]
  have hmeets : Service.Meets w.worker.service m (w.worker.service.step m).1
      (w.worker.service.turn (.work m)).2.1 := Service.meets_step ends m
  show Inward text
    { w with worker := { w.worker with service := (w.worker.service.step m).1 } } _
  generalize (w.worker.service.turn (.work m)).2.1 = passed at hmeets
  generalize (w.worker.service.step m).1 = s' at hmeets
  cases hmeets with
  | quiet link stopped =>
    show Inward text _ (received dealt ++ [])
    rw [List.append_nil]
    exact h.untouched rfl (congrArg Link.prompts link) stopped
  | posts live admits link stopped =>
    show Inward text _ (received dealt ++ [])
    rw [List.append_nil]
    exact h.untouched rfl (by rw [link]) stopped
  | receives live queue link stopped =>
    refine ⟨⟨input, hinput, ?_⟩, whole, ?_, fun hs => ?_⟩
    · have htaken := hfaithful.take
      have hqueue : (w.intake (received dealt) input).channel.queue = _ := queue
      rw [Intake.take_cons hqueue] at htaken
      unfold Streamed.intake
      rw [congrArg Link.prompts link]
      exact htaken
    · rw [link]
      exact room
    · rw [stopped, Service.stopped_of_isLive live] at hs
      cases hs
  | stops ended link stopped =>
    show Inward text _ (received dealt ++ [])
    rw [List.append_nil]
    refine ⟨⟨input, hinput, ?_⟩, whole, ?_, fun _ => ?_⟩
    · unfold Streamed.intake
      rw [congrArg Link.prompts link]
      exact hfaithful.step .leave
    · rw [link]
      exact room
    · obtain ⟨hlive, hend⟩ := ended.resolve_left stays
      exact h.complete (hsame.symm.trans (Service.stopped_of_isLive hlive)) hend

end LineWorker

end Invigilation
