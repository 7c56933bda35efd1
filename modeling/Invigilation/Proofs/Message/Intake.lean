import Invigilation.Message.Pump
import Invigilation.Proofs.Message.Lines
import Invigilation.Proofs.Message.Wire

/-!
# From a byte stream to a receiver

A reader takes a byte stream as it arrives and puts the messages of its lines into a channel, from
which a receiver takes them. How the stream is cut into reads, when the reader and the receiver get
to run and how much room the channel has makes no difference to what is delivered. A line that
spells no message is passed over, with one exception: the reader stops for good at a line that is
not UTF-8.

- `Intake`, `Intake.Move`, `Intake.step`: the reader, its channel and the receiver, in any order.
- `Intake.Faithful`: what holds between the bytes that arrived and the messages.
- `Intake.Delivers`, `Intake.delivers_run`: **what is delivered is what is heard** from the lines.
- `Intake.delivers_not_skipping`: a line that is not UTF-8 is not passed over.
-/

namespace Invigilation

open Text (Bytes)

namespace Lines

/-- A reader of a byte stream, the channel it fills, and its receiver. -/
structure Intake (α : Type) where
  reader : Reader α := {}
  channel : Channel α
  /-- What the receiver has taken. -/
  taken : List α := []
  /-- The bytes that have arrived. -/
  input : Bytes := []
  /-- No more bytes will arrive. -/
  ended : Bool := false

namespace Intake

/-- What can happen. -/
inductive Move where
  | feed (bytes : Bytes)
  | endInput
  /-- The reader puts its next message into the channel, or leaves when it will have none. -/
  | forward
  /-- The receiver takes the next message. -/
  | take
  /-- The receiver admits no more. -/
  | close
  /-- The receiver leaves. -/
  | leave
  deriving DecidableEq

variable {α : Type} {decode : Bytes → Option α} {i : Intake α}

/-- The receiver takes the next message, if there is one. -/
def take (i : Intake α) : Intake α :=
  match i.channel.receive with
  | (channel, .item m) => { i with channel, taken := i.taken ++ [m] }
  | (_, .waiting) | (_, .ended) => i

/-- One move. -/
def step (decode : Bytes → Option α) (i : Intake α) : Move → Intake α
  | .feed bytes =>
    if i.ended then i
    else { i with reader := i.reader.feed decode bytes, input := i.input ++ bytes }
  | .endInput => { i with reader := i.reader.finish decode, ended := true }
  | .forward =>
    { i with reader := (i.reader.forward i.channel).1, channel := (i.reader.forward i.channel).2 }
  | .take => i.take
  | .close => { i with channel := i.channel.close }
  | .leave => { i with channel := i.channel.discard }

/-- A run of moves. -/
def run (decode : Bytes → Option α) (i : Intake α) (moves : List Move) : Intake α :=
  moves.foldl (step decode) i

/-- Nothing has arrived yet. -/
def fresh (α : Type) (capacity : Nat) : Intake α :=
  { channel := { capacity } }

/-- The lines that have arrived. -/
def lines (i : Intake α) : List Bytes :=
  linesOf i.input i.ended

/-- Whether the receiver sees that nothing more will come. -/
def isOver (i : Intake α) : Bool :=
  i.channel.isEnded

end Intake

/-! ## The reader -/

variable {α : Type} {decode : Bytes → Option α} {r : Reader α} {input : Bytes} {ended : Bool}

/-- The reader stands where the bytes that arrived have brought it: it has stopped if these have
ended or hold a line that is not UTF-8, and else it keeps their unfinished line. -/
structure Inlet.Follows (inlet : Inlet) (input : Bytes) (ended : Bool) : Prop where
  stopped : inlet.stopped = (ended || !(linesOf input ended).all isText)
  unfinished : inlet.stopped = false → inlet.partialLine = (split input).2

/-- Bytes that arrive are heard after those before them. -/
theorem Inlet.Follows.feed (h : r.inlet.Follows input false) (bytes : Bytes) :
    (r.feed decode bytes).inlet.Follows (input ++ bytes) false ∧
      ∃ more, (r.feed decode bytes).waiting = r.waiting ++ more ∧
        heard decode (linesOf (input ++ bytes) false) =
          heard decode (linesOf input false) ++ more := by
  obtain ⟨hstopped, hunfinished⟩ := h
  have hsplit := split_append input bytes
  rw [linesOf_append]
  cases hs : r.inlet.stopped with
  | true =>
    have hbroken : (linesOf input false).all isText = false := by simpa [hs] using hstopped
    have hfeed : r.feed decode bytes = r := by simp [Reader.feed, Inlet.feed, hs]
    rw [hfeed]
    refine ⟨⟨?_, fun h => absurd (hs.symm.trans h) nofun⟩, [], (List.append_nil _).symm, ?_⟩
    · rw [hs, linesOf_append, List.all_append, hbroken]
      rfl
    · rw [heard_append_of_not hbroken, List.append_nil]
  | false =>
    have hsound : (linesOf input false).all isText = true := by simpa [hs] using hstopped
    have hfeed : r.feed decode bytes =
        ⟨⟨(split (input ++ bytes)).2, !(split ((split input).2 ++ bytes)).1.all isText⟩,
          r.waiting ++ heard decode (split ((split input).2 ++ bytes)).1⟩ := by
      simp [Reader.feed, Inlet.feed, hs, read_eq, hunfinished hs, hsplit]
    rw [hfeed]
    refine ⟨⟨?_, fun _ => rfl⟩, _, rfl, heard_append hsound _⟩
    rw [linesOf_append, List.all_append, hsound]
    rfl

/-- So is a last line when the input ends. -/
theorem Inlet.Follows.finish (h : r.inlet.Follows input ended) :
    (r.finish decode).inlet.Follows input true ∧
      ∃ more, (r.finish decode).waiting = r.waiting ++ more ∧
        heard decode (linesOf input true) = heard decode (linesOf input ended) ++ more := by
  obtain ⟨hstopped, hunfinished⟩ := h
  cases hs : r.inlet.stopped with
  | true =>
    have hfinish : r.finish decode = r := by simp [Reader.finish, Inlet.finish, hs]
    rw [hfinish]
    refine ⟨⟨hs, fun h => absurd (hs.symm.trans h) nofun⟩, [], (List.append_nil _).symm, ?_⟩
    rw [List.append_nil]
    cases ended with
    | true => rfl
    | false =>
      have hbroken : (linesOf input false).all isText = false := by simpa [hs] using hstopped
      rw [linesOf_true, heard_append_of_not hbroken]
  | false =>
    obtain ⟨rfl, hsound⟩ : ended = false ∧ (linesOf input ended).all isText = true := by
      simpa [hs] using hstopped
    have hfinish : r.finish decode = ⟨⟨[], true⟩, r.waiting ++ heard decode
        (if (split input).2.isEmpty then [] else [(split input).2])⟩ := by
      simp [Reader.finish, Inlet.finish, hs, read_eq, hunfinished hs]
    rw [hfinish, linesOf_true]
    exact ⟨⟨rfl, nofun⟩, _, rfl, heard_append hsound _⟩

theorem Reader.forward_nil {c : Channel α} (h : r.waiting = []) :
    r.forward c = (r, if r.inlet.stopped then c.leave else c) := by
  rw [Reader.forward, h]

theorem Reader.forward_cons {c : Channel α} {m : α} {rest : List α} (h : r.waiting = m :: rest) :
    r.forward c =
      if c.closed then (⟨{ r.inlet with stopped := true }, []⟩, c.leave)
      else if c.hasRoom then ({ r with waiting := rest }, { c with queue := c.queue ++ [m] })
      else (r, c) := by
  rw [Reader.forward, h]
  dsimp only
  rw [Channel.send]
  cases c.closed
  · cases c.hasRoom <;> rfl
  · rfl

/-! ## Reader, channel and receiver -/

namespace Intake

variable {i : Intake α}

/-- What holds between the bytes that arrived and the messages. As long as the receiver admits
messages, what it took, what is queued for it and what waits at the reader are together what is
heard from the lines. -/
structure Faithful (decode : Bytes → Option α) (i : Intake α) : Prop where
  inOrder : i.taken ++ i.channel.queue <+: heard decode i.lines
  follows : i.channel.closed = false → i.reader.inlet.Follows i.input i.ended
  whole : i.channel.closed = false →
    i.taken ++ i.channel.queue ++ i.reader.waiting = heard decode i.lines
  gone : i.channel.closed = false → i.channel.senderGone = true →
    i.reader.waiting = [] ∧ i.reader.inlet.stopped = true

theorem faithful_fresh (decode : Bytes → Option α) (capacity : Nat) :
    Faithful decode (fresh α capacity) :=
  ⟨List.prefix_refl [], fun _ => ⟨rfl, fun _ => rfl⟩, fun _ => rfl, nofun⟩

/-- More is heard, and it waits at the reader. -/
theorem Faithful.hear (h : Faithful decode i) {reader : Reader α} {input : Bytes} {ended : Bool}
    (hgrows : heard decode i.lines <+: heard decode (linesOf input ended))
    (hfollows : i.reader.inlet.Follows i.input i.ended →
      reader.inlet.Follows input ended ∧ ∃ more, reader.waiting = i.reader.waiting ++ more ∧
        heard decode (linesOf input ended) = heard decode i.lines ++ more)
    (hstopped : i.reader.inlet.stopped = true → reader = i.reader) :
    Faithful decode { i with reader, input, ended } := by
  obtain ⟨inOrder, follows, whole, gone⟩ := h
  refine ⟨inOrder.trans hgrows, fun hopen => (hfollows (follows hopen)).1, fun hopen => ?_, ?_⟩
  · obtain ⟨-, more, hwaiting, hheard⟩ := hfollows (follows hopen)
    show i.taken ++ i.channel.queue ++ reader.waiting = heard decode (linesOf input ended)
    rw [hwaiting, hheard, ← List.append_assoc, whole hopen]
  · intro hopen hgone
    obtain ⟨hwaiting, hstop⟩ := gone hopen hgone
    show reader.waiting = [] ∧ reader.inlet.stopped = true
    rw [hstopped hstop]
    exact ⟨hwaiting, hstop⟩

/-- Once the receiver admits no more, nothing is put into the channel. -/
theorem Faithful.closed (h : Faithful decode i) {reader : Reader α} {channel : Channel α}
    (hclosed : channel.closed = true) (hqueue : channel.queue <+: i.channel.queue) :
    Faithful decode { i with reader, channel } := by
  refine ⟨(List.prefix_append_right_inj _ |>.mpr hqueue).trans h.inOrder, ?_, ?_, ?_⟩ <;>
    exact fun hopen => absurd (hclosed.symm.trans hopen) nofun

theorem Faithful.forward (h : Faithful decode i) : Faithful decode (i.step decode .forward) := by
  show Faithful decode { i with
    reader := (i.reader.forward i.channel).1, channel := (i.reader.forward i.channel).2 }
  obtain ⟨inOrder, follows, whole, gone⟩ := id h
  cases hwaiting : i.reader.waiting with
  | nil =>
    rw [Reader.forward_nil hwaiting]
    cases hstopped : i.reader.inlet.stopped with
    | true => exact ⟨inOrder, follows, whole, fun _ _ => ⟨hwaiting, hstopped⟩⟩
    | false => exact h
  | cons m rest =>
    rw [Reader.forward_cons hwaiting]
    cases hclosed : i.channel.closed with
    | true => exact h.closed hclosed (List.prefix_refl _)
    | false =>
      cases i.channel.hasRoom with
      | false => exact h
      | true =>
        have hpresent : i.channel.senderGone ≠ true := by
          intro hgone
          have hnone := (gone hclosed hgone).1
          rw [hwaiting] at hnone
          cases hnone
        have hmoved : i.taken ++ (i.channel.queue ++ [m]) ++ rest = heard decode i.lines := by
          rw [← whole hclosed, hwaiting]
          simp
        exact ⟨⟨rest, hmoved⟩, fun _ => follows hclosed, fun _ => hmoved,
          fun _ hgone => absurd hgone hpresent⟩

theorem Faithful.take (h : Faithful decode i) : Faithful decode i.take := by
  obtain ⟨inOrder, follows, whole, gone⟩ := id h
  unfold Intake.take Channel.receive
  cases hqueue : i.channel.queue with
  | nil =>
    dsimp only
    cases i.channel.senderGone || i.channel.closed <;> exact h
  | cons m rest =>
    have hmoved : i.taken ++ [m] ++ rest = i.taken ++ i.channel.queue := by
      rw [hqueue, List.append_assoc, List.singleton_append]
    refine ⟨?_, follows, fun hopen => ?_, gone⟩
    · show i.taken ++ [m] ++ rest <+: _
      rw [hmoved]
      exact inOrder
    · show i.taken ++ [m] ++ rest ++ i.reader.waiting = _
      rw [hmoved]
      exact whole hopen

/-- Every move keeps the invariant. -/
theorem Faithful.step (h : Faithful decode i) (m : Move) : Faithful decode (i.step decode m) := by
  cases m with
  | feed bytes =>
    unfold Intake.step
    cases hended : i.ended with
    | true => exact h
    | false =>
      have hlines : i.lines = linesOf i.input false := congrArg (linesOf i.input) hended
      refine h.hear ?_ (fun hfollows => ?_) fun hs => by simp [Reader.feed, Inlet.feed, hs]
      · rw [hlines, linesOf_append]
        exact heard_mono _ _ _
      · rw [hlines]
        exact (hended ▸ hfollows).feed bytes
  | endInput =>
    refine h.hear ?_ Inlet.Follows.finish fun hs => by simp [Reader.finish, Inlet.finish, hs]
    cases hended : i.ended with
    | true =>
      have hlines : i.lines = linesOf i.input true := congrArg (linesOf i.input) hended
      rw [hlines]
    | false =>
      have hlines : i.lines = linesOf i.input false := congrArg (linesOf i.input) hended
      rw [hlines, linesOf_true]
      exact heard_mono _ _ _
  | forward => exact h.forward
  | take => exact h.take
  | close => exact h.closed rfl (List.prefix_refl _)
  | leave => exact h.closed rfl List.nil_prefix

/-- So does every run. -/
theorem Faithful.run (h : Faithful decode i) (moves : List Move) :
    Faithful decode (i.run decode moves) := by
  induction moves generalizing i with
  | nil => exact h
  | cons m rest ih => exact ih (h.step m)

/-! ## Delivery -/

/-- Whether a move is one of those that carry messages from the reader to the receiver. -/
def Move.carries : Move → Bool
  | .forward | .take => true
  | .feed _ | .endInput | .close | .leave => false

/-- What remains between two points of a run in which messages are only carried. -/
structure Steady (i j : Intake α) : Prop where
  inlet : j.reader.inlet = i.reader.inlet
  capacity : j.channel.capacity = i.channel.capacity
  closed : j.channel.closed = i.channel.closed
  input : j.input = i.input
  ended : j.ended = i.ended

theorem Steady.trans {j k : Intake α} (h : Steady i j) (h' : Steady j k) : Steady i k :=
  ⟨h'.inlet.trans h.inlet, h'.capacity.trans h.capacity, h'.closed.trans h.closed,
    h'.input.trans h.input, h'.ended.trans h.ended⟩

/-- Everything that was read has been delivered, and the reader has left if it had stopped. -/
structure Drained (i j : Intake α) : Prop extends Steady i j where
  waiting : j.reader.waiting = []
  queue : j.channel.queue = []
  gone : i.reader.inlet.stopped = true → j.channel.senderGone = true

/-- The receiver takes a message that is queued. -/
theorem take_cons {m : α} {rest : List α} (h : i.channel.queue = m :: rest) :
    i.take = { i with channel := { i.channel with queue := rest }, taken := i.taken ++ [m] } := by
  rw [Intake.take, Channel.receive, h]

/-- Bytes that arrive leave the channel as it is. -/
theorem step_feed (decode : Bytes → Option α) (i : Intake α) (bytes : Bytes) :
    (i.step decode (.feed bytes)).ended = i.ended ∧
      (i.step decode (.feed bytes)).channel = i.channel := by
  unfold Intake.step
  dsimp only
  split <;> exact ⟨rfl, rfl⟩

/-- Messages that are carried bring no bytes and close nothing. -/
theorem step_carries {m : Move} (hm : m.carries = true) (decode : Bytes → Option α)
    (i : Intake α) :
    (i.step decode m).channel.closed = i.channel.closed ∧ (i.step decode m).input = i.input ∧
      (i.step decode m).ended = i.ended := by
  cases m with
  | feed | endInput | close | leave => cases hm
  | forward =>
    refine ⟨?_, rfl, rfl⟩
    show (i.reader.forward i.channel).2.closed = i.channel.closed
    cases hwaiting : i.reader.waiting with
    | nil =>
      rw [Reader.forward_nil hwaiting]
      split <;> rfl
    | cons m rest =>
      rw [Reader.forward_cons hwaiting]
      split
      · rfl
      · split <;> rfl
  | take =>
    show i.take.channel.closed = _ ∧ i.take.input = _ ∧ i.take.ended = _
    cases hqueue : i.channel.queue with
    | nil =>
      have htake : i.take = i := by
        rw [Intake.take, Channel.receive, hqueue]
        dsimp only
        cases i.channel.senderGone || i.channel.closed <;> rfl
      rw [htake]
      exact ⟨rfl, rfl, rfl⟩
    | cons m rest =>
      rw [take_cons hqueue]
      exact ⟨rfl, rfl, rfl⟩

/-- However little room the channel has, the reader and the receiver can deliver what was read. -/
theorem exists_drained (decode : Bytes → Option α) (hopen : i.channel.closed = false)
    (hroom : 0 < i.channel.capacity) :
    ∃ moves : List Move, (∀ m ∈ moves, m.carries = true) ∧ Drained i (i.run decode moves) := by
  -- a message takes two moves from the reader to the receiver, and one from the channel
  obtain ⟨n, hn⟩ : ∃ n, n = 2 * i.reader.waiting.length + i.channel.queue.length := ⟨_, rfl⟩
  induction n using Nat.strong_induction_on generalizing i with
  | _ n ih =>
    have after : ∀ m : Move, m.carries = true → Steady i (i.step decode m) →
        2 * (i.step decode m).reader.waiting.length + (i.step decode m).channel.queue.length < n →
        ∃ moves : List Move, (∀ m ∈ moves, m.carries = true) ∧
          Drained i (i.run decode moves) := by
      intro m hm hsteady hless
      obtain ⟨moves, hmoves, hlater, hwaiting, hqueue, hgone⟩ := ih _ hless
        (hsteady.closed.trans hopen) (hsteady.capacity ▸ hroom) rfl
      rw [hsteady.inlet] at hgone
      exact ⟨m :: moves, List.forall_mem_cons.mpr ⟨hm, hmoves⟩, hsteady.trans hlater, hwaiting,
        hqueue, hgone⟩
    cases hqueue : i.channel.queue with
    | cons a queue =>
      have htake : i.step decode .take = i.take := rfl
      rw [take_cons hqueue] at htake
      refine after .take rfl (htake ▸ ⟨rfl, rfl, rfl, rfl, rfl⟩) ?_
      rw [htake, hn, hqueue, List.length_cons]
      exact Nat.lt_succ_self _
    | nil =>
      cases hwaiting : i.reader.waiting with
      | cons a waiting =>
        have hfits : i.channel.hasRoom = true := by simp [Channel.hasRoom, hqueue, hroom]
        have hforward : i.step decode .forward = { i with
            reader := { i.reader with waiting }
            channel := { i.channel with queue := [a] } } := by
          simp [Intake.step, Reader.forward_cons hwaiting, hopen, hfits, hqueue]
        refine after .forward rfl (hforward ▸ ⟨rfl, rfl, rfl, rfl, rfl⟩) ?_
        rw [hforward, hn, hqueue, hwaiting]
        simp
        omega
      | nil =>
        have hforward : i.run decode [.forward] = { i with
            channel := if i.reader.inlet.stopped then i.channel.leave else i.channel } := by
          show i.step decode .forward = _
          simp [Intake.step, Reader.forward_nil hwaiting]
        refine ⟨[.forward], by simp [Move.carries], ?_⟩
        rw [hforward]
        cases hstopped : i.reader.inlet.stopped with
        | true => exact ⟨⟨rfl, rfl, rfl, rfl, rfl⟩, hwaiting, hqueue, fun _ => rfl⟩
        | false => exact ⟨⟨rfl, rfl, rfl, rfl, rfl⟩, hwaiting, hqueue, fun h => absurd
            (hstopped.symm.trans h) nofun⟩

/-- What holds of the messages that a receiver has taken:
1. they are heard from the lines, from the first on and in order;
2. as long as the receiver admits messages, what it has not taken yet is queued or waits;
3. when it sees that nothing more will come, it has taken all that is heard, and the input has ended
   or holds a line that is not UTF-8;
4. however little room the channel has, it can take all that is heard by now, and see the end if
   there is one. -/
structure Delivers (decode : Bytes → Option α) (i : Intake α) : Prop where
  inOrder : i.taken <+: heard decode i.lines
  kept : i.channel.closed = false →
    i.taken ++ i.channel.queue ++ i.reader.waiting = heard decode i.lines
  complete : i.channel.closed = false → i.isOver = true →
    i.taken = heard decode i.lines ∧ (i.ended = true ∨ i.lines.all isText = false)
  possible : i.channel.closed = false → 0 < i.channel.capacity →
    ∃ moves : List Move, (∀ m ∈ moves, m.carries = true) ∧
      (i.run decode moves).taken = heard decode i.lines ∧
      (i.ended = true ∨ i.lines.all isText = false → (i.run decode moves).isOver = true)

theorem Faithful.delivers (h : Faithful decode i) : Delivers decode i := by
  have hstopped : i.channel.closed = false →
      (i.reader.inlet.stopped = true ↔ i.ended = true ∨ i.lines.all isText = false) := by
    intro hopen
    rw [(h.follows hopen).stopped, Bool.or_eq_true, Bool.not_eq_true']
    rfl
  refine ⟨(List.prefix_append _ _).trans h.inOrder, h.whole, fun hopen hover => ?_,
    fun hopen hroom => ?_⟩
  · rw [isOver, Channel.isEnded, hopen, Bool.or_false, Bool.and_eq_true, List.isEmpty_iff] at hover
    obtain ⟨hqueue, hgone⟩ := hover
    obtain ⟨hwaiting, hstop⟩ := h.gone hopen hgone
    have hwhole := h.whole hopen
    rw [hqueue, hwaiting, List.append_nil, List.append_nil] at hwhole
    exact ⟨hwhole, (hstopped hopen).mp hstop⟩
  · obtain ⟨moves, hmoves, hsteady, hwaiting, hqueue, hgone⟩ := exists_drained decode hopen hroom
    have hwhole := (h.run moves).whole (hsteady.closed.trans hopen)
    have hlines : (i.run decode moves).lines = i.lines := by
      rw [Intake.lines, hsteady.input, hsteady.ended, Intake.lines]
    rw [hqueue, hwaiting, List.append_nil, List.append_nil, hlines] at hwhole
    refine ⟨moves, hmoves, hwhole, fun hend => ?_⟩
    rw [isOver, Channel.isEnded, hqueue, hgone ((hstopped hopen).mpr hend)]
    rfl

/-- **What is delivered is what is heard from the lines**: the messages of those before the first
that is not UTF-8, in order, however the bytes are cut and whoever gets to run when. -/
theorem delivers_run (decode : Bytes → Option α) (capacity : Nat) (moves : List Move) :
    Delivers decode ((fresh α capacity).run decode moves) :=
  ((faithful_fresh decode capacity).run moves).delivers

/-- A ping that comes after a line which is not UTF-8 is lost, though the receiver waits for it to
the end. -/
theorem delivers_not_skipping :
    let bytes : Bytes := 0xFF :: newline :: line (HostMessage.prompt .ping).wire
    let i := (fresh HostMessage 1).run HostMessage.decode?
      [.feed bytes, .endInput, .forward, .take, .forward]
    i.input = bytes ∧ i.ended = true ∧ i.channel.closed = false ∧ i.isOver = true ∧
      i.taken = [] ∧ i.lines.filterMap (decoding HostMessage.decode?) = [.prompt .ping] := by
  intro bytes i
  have hbroken : newline ∉ [(0xFF : UInt8)] := by decide
  have hping : newline ∉ Text.toBytes (HostMessage.prompt .ping).wire :=
    newline_notMem_render _
  have hsplit : split bytes = ([[0xFF], Text.toBytes (HostMessage.prompt .ping).wire], []) := by
    show split ([0xFF] ++ newline :: (_ ++ newline :: [])) = _
    rw [split_line hbroken, split_line hping]
    rfl
  -- the reader stops at the first line and drops the bytes after it
  have hfeed : (fresh HostMessage 1).step HostMessage.decode? (.feed bytes) =
      { reader := ⟨⟨[], true⟩, []⟩, channel := { capacity := 1 }, input := bytes } := by
    have hread : ∀ rest, read HostMessage.decode? ([0xFF] :: rest) = ([], true) := fun _ => rfl
    simp [Intake.step, fresh, Reader.feed, Inlet.feed, hsplit, hread]
  have hrun : i = {
      reader := ⟨⟨[], true⟩, []⟩
      channel := { capacity := 1, senderGone := true }
      input := bytes
      ended := true } := by
    show Intake.run HostMessage.decode? _ [.endInput, .forward, .take, .forward] = _
    rw [hfeed]
    rfl
  have hlines : i.lines = [[0xFF], Text.toBytes (HostMessage.prompt .ping).wire] := by
    rw [hrun, lines, linesOf, hsplit]
    rfl
  have hspelt : decoding HostMessage.decode? (Text.toBytes (HostMessage.prompt .ping).wire) =
      some (.prompt .ping) :=
    (decoding_toBytes _).trans (HostMessage.message?_wire trivial)
  have hnone : decoding HostMessage.decode? [0xFF] = none := rfl
  rw [hlines, List.filterMap_cons_none hnone, List.filterMap_cons_some hspelt, hrun]
  exact ⟨rfl, rfl, rfl, rfl, rfl, rfl⟩

end Intake

end Lines

end Invigilation
