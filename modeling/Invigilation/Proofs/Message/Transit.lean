import Invigilation.Proofs.Message.Intake

/-!
# From a sender to a receiver

Between processes a message passes a channel, a writer, the bytes of a pipe, a reader and another
channel. All of them get to run in any order, the reads cut the bytes anywhere, and either channel
may have room for a single message.

- `Transit`, `Transit.Move`, `Transit.step`: the whole way, in any order of moves.
- `Transit.Sound`: what holds along the way. What was written and not yet read is in the pipe.
- `Transit.Conveys`, `Transit.conveys_run`: the receiver takes what the lines of the messages say.
- `Transit.Lossless`, `Transit.lossless_run`: **the receiver takes the very messages that were
  sent**, in order and to the last, if they can be read at all.
-/

namespace Invigilation.Lines

open Text (Bytes)

/-! ## The writer -/

namespace Writer

variable {α : Type} {w : Writer} {c : Channel α}

theorem write_done (h : w.isDone = true) : w.write c = (w, c, none) :=
  if_pos h

theorem write_cons {m : α} {rest : List α} (hdone : w.isDone = false) (hopen : w.outputOpen = true)
    (hqueue : c.queue = m :: rest) : w.write c = (w, { c with queue := rest }, some m) := by
  simp [write, Channel.receive, hdone, hopen, hqueue]

theorem write_nil (hdone : w.isDone = false) (hqueue : c.queue = []) :
    w.write c =
      if c.senderGone || c.closed then ({ w with isDone := true }, c.discard, none)
      else (w, c, none) := by
  cases hend : c.senderGone || c.closed <;> simp [write, Channel.receive, hdone, hqueue, hend]

end Writer

/-! ## The whole way -/

/-- The way from a sender to a receiver in another process. -/
structure Transit (α : Type) where
  /-- The channel that the sender fills and the writer empties. -/
  outgoing : Channel α
  writer : Writer := {}
  /-- What was written and has not been read. -/
  pipe : Bytes := []
  /-- The reader, the channel it fills, and the receiver. -/
  intake : Intake α
  /-- What the sender has put into its channel. -/
  sent : List α := []
  /-- What the writer has written. -/
  written : List α := []

namespace Transit

/-- What can happen. -/
inductive Move (α : Type) where
  | send (m : α)
  /-- The sender leaves. -/
  | leave
  /-- The writer writes the next message, or is done when there will be none. -/
  | write
  /-- So many bytes are read, or as many as there are. -/
  | read (count : Nat)
  /-- The end of what is written is read. -/
  | readEnd
  /-- The reader puts its next message into its channel, or leaves when it will have none. -/
  | forward
  /-- The receiver takes the next message. -/
  | take
  deriving DecidableEq

variable {α : Type}

/-- The sender puts a message into its channel, if there is room. -/
def send (t : Transit α) (m : α) : Transit α :=
  if t.outgoing.senderGone then t
  else
    match t.outgoing.send m with
    | (outgoing, .sent) => { t with outgoing, sent := t.sent ++ [m] }
    | (_, .waiting) | (_, .refused) => t

/-- The writer's turn. -/
def write (wire : α → String) (t : Transit α) : Transit α :=
  let (writer, outgoing, message?) := t.writer.write t.outgoing
  { t with
    writer
    outgoing
    pipe := t.pipe ++ Lines.write wire message?.toList
    written := t.written ++ message?.toList }

/-- One move. -/
def step (wire : α → String) (decode : Bytes → Option α) (t : Transit α) : Move α → Transit α
  | .send m => t.send m
  | .leave => { t with outgoing := t.outgoing.leave }
  | .write => t.write wire
  | .read count =>
    { t with
      pipe := t.pipe.drop count
      intake := t.intake.step decode (.feed (t.pipe.take count)) }
  | .readEnd =>
    if t.writer.isDone && t.pipe.isEmpty then
      { t with intake := t.intake.step decode .endInput }
    else t
  | .forward => { t with intake := t.intake.step decode .forward }
  | .take => { t with intake := t.intake.step decode .take }

/-- A run of moves. -/
def run (wire : α → String) (decode : Bytes → Option α) (t : Transit α) (moves : List (Move α)) :
    Transit α :=
  moves.foldl (step wire decode) t

/-- Nothing has been sent yet, and so many messages have room in the two channels. -/
def fresh (α : Type) (sendRoom receiveRoom : Nat) : Transit α :=
  { outgoing := { capacity := sendRoom }, intake := .fresh α receiveRoom }

/-- What the lines of messages say. -/
def understood (wire : α → String) (decode : Bytes → Option α) (messages : List α) : List α :=
  messages.filterMap fun m => message? decode (wire m)

variable {wire : α → String} {decode : Bytes → Option α} {t : Transit α}

theorem write_done (h : t.writer.isDone = true) : t.write wire = t := by
  simp [Transit.write, Writer.write_done h, Lines.write]

theorem write_cons {m : α} {rest : List α} (hdone : t.writer.isDone = false)
    (hopen : t.writer.outputOpen = true) (hqueue : t.outgoing.queue = m :: rest) :
    t.write wire = { t with
      outgoing := { t.outgoing with queue := rest }
      pipe := t.pipe ++ line (wire m)
      written := t.written ++ [m] } := by
  simp [Transit.write, Writer.write_cons hdone hopen hqueue, Lines.write]

theorem write_nil (hdone : t.writer.isDone = false) (hqueue : t.outgoing.queue = []) :
    t.write wire =
      if t.outgoing.senderGone || t.outgoing.closed then { t with
        writer := { t.writer with isDone := true }
        outgoing := t.outgoing.discard }
      else t := by
  cases hend : t.outgoing.senderGone || t.outgoing.closed <;>
    simp [Transit.write, Writer.write_nil hdone hqueue, hend, Lines.write]

/-! ## The invariant -/

/-- What holds along the way. -/
structure Sound (wire : α → String) (decode : Bytes → Option α) (t : Transit α) : Prop where
  queued : t.sent = t.written ++ t.outgoing.queue
  piped : t.intake.input ++ t.pipe = Lines.write wire t.written
  openEnd : t.writer.outputOpen = true
  admits : t.writer.isDone = false → t.outgoing.closed = false
  finished : t.writer.isDone = true → t.outgoing.senderGone = true ∧ t.outgoing.queue = []
  drained : t.intake.ended = true → t.writer.isDone = true ∧ t.pipe = []
  faithful : t.intake.Faithful decode
  present : t.intake.channel.closed = false

theorem sound_fresh (wire : α → String) (decode : Bytes → Option α) (sendRoom receiveRoom : Nat) :
    Sound wire decode (fresh α sendRoom receiveRoom) :=
  ⟨rfl, rfl, rfl, fun _ => rfl, nofun, nofun, Intake.faithful_fresh decode receiveRoom, rfl⟩

/-- A message is put into the channel, or nothing happens. -/
theorem send_cases (t : Transit α) (m : α) :
    t.send m = t ∨ t.outgoing.senderGone = false ∧
      t.send m = { t with
        outgoing := { t.outgoing with queue := t.outgoing.queue ++ [m] }
        sent := t.sent ++ [m] } := by
  cases hgone : t.outgoing.senderGone with
  | true => exact .inl (if_pos hgone)
  | false =>
    unfold Transit.send Channel.send
    cases hclosed : t.outgoing.closed with
    | true => simp [hgone]
    | false => cases t.outgoing.hasRoom <;> simp [hgone, hclosed]

theorem Sound.send (h : Sound wire decode t) (m : α) : Sound wire decode (t.send m) := by
  rcases t.send_cases m with hsame | ⟨hpresent, hsent⟩
  · rw [hsame]
    exact h
  rw [hsent]
  refine { h with queued := ?_, finished := fun hdone => ?_ }
  · show t.sent ++ [m] = t.written ++ (t.outgoing.queue ++ [m])
    rw [h.queued, List.append_assoc]
  · exact absurd (hpresent.symm.trans (h.finished hdone).1) nofun

theorem Sound.write (h : Sound wire decode t) : Sound wire decode (t.write wire) := by
  cases hdone : t.writer.isDone with
  | true =>
    rw [write_done hdone]
    exact h
  | false =>
    -- the input ends only after the writer is done
    have hrunning : t.intake.ended ≠ true := fun hended =>
      absurd (hdone.symm.trans (h.drained hended).1) nofun
    cases hqueue : t.outgoing.queue with
    | cons m rest =>
      rw [write_cons hdone h.openEnd hqueue]
      refine { h with queued := ?_, piped := ?_, finished := fun hd => ?_, drained := fun he => ?_ }
      · show t.sent = t.written ++ [m] ++ rest
        rw [h.queued, hqueue, List.append_assoc, List.singleton_append]
      · show t.intake.input ++ (t.pipe ++ line (wire m)) = Lines.write wire (t.written ++ [m])
        rw [← List.append_assoc, h.piped, Lines.write, Lines.write, List.flatMap_append,
          List.flatMap_singleton]
      · exact absurd (hdone.symm.trans hd) nofun
      · exact absurd he hrunning
    | nil =>
      rw [write_nil hdone hqueue, h.admits hdone, Bool.or_false]
      cases hgone : t.outgoing.senderGone with
      | false => exact h
      | true =>
        refine { h with
          queued := ?_
          admits := nofun
          finished := fun _ => ⟨hgone, rfl⟩
          drained := fun he => absurd he hrunning }
        show t.sent = t.written ++ []
        rw [h.queued, hqueue]

theorem Sound.read (h : Sound wire decode t) (count : Nat) :
    Sound wire decode (t.step wire decode (.read count)) := by
  obtain ⟨hended, hchannel⟩ := Intake.step_feed decode t.intake (t.pipe.take count)
  show Sound wire decode { t with
    pipe := t.pipe.drop count
    intake := t.intake.step decode (.feed (t.pipe.take count)) }
  refine { h with
    piped := ?_
    drained := fun he => ?_
    faithful := h.faithful.step (.feed (t.pipe.take count))
    present := (congrArg Channel.closed hchannel).trans h.present }
  · show (t.intake.step decode (.feed (t.pipe.take count))).input ++ t.pipe.drop count = _
    cases he : t.intake.ended with
    | true =>
      have hpipe := (h.drained he).2
      have hpiped := h.piped
      rw [hpipe] at hpiped ⊢
      simpa [Intake.step, he] using hpiped
    | false =>
      rw [Intake.step, if_neg (by simp [he])]
      show t.intake.input ++ t.pipe.take count ++ t.pipe.drop count = _
      rw [List.append_assoc, List.take_append_drop, h.piped]
  · obtain ⟨hdone, hpipe⟩ := h.drained (hended.symm.trans he)
    refine ⟨hdone, ?_⟩
    show t.pipe.drop count = []
    rw [hpipe, List.drop_nil]

theorem Sound.readEnd (h : Sound wire decode t) :
    Sound wire decode (t.step wire decode .readEnd) := by
  unfold Transit.step
  dsimp only
  split
  · next hend =>
    rw [Bool.and_eq_true, List.isEmpty_iff] at hend
    exact { h with drained := fun _ => hend, faithful := h.faithful.step .endInput }
  · exact h

theorem Sound.carried (h : Sound wire decode t) {m : Intake.Move} (hm : m.carries = true) :
    Sound wire decode { t with intake := t.intake.step decode m } := by
  obtain ⟨hclosed, hinput, hended⟩ := Intake.step_carries hm decode t.intake
  refine { h with
    piped := ?_
    drained := fun he => h.drained (hended.symm.trans he)
    faithful := h.faithful.step m
    present := hclosed.trans h.present }
  show (t.intake.step decode m).input ++ t.pipe = _
  rw [hinput, h.piped]

/-- Every move keeps the invariant. -/
theorem Sound.step (h : Sound wire decode t) (m : Move α) :
    Sound wire decode (t.step wire decode m) := by
  cases m with
  | send m => exact h.send m
  | leave => exact { h with finished := fun hdone => ⟨rfl, (h.finished hdone).2⟩ }
  | write => exact h.write
  | read count => exact h.read count
  | readEnd => exact h.readEnd
  | forward => exact h.carried (m := .forward) rfl
  | take => exact h.carried (m := .take) rfl

/-- So does every run. -/
theorem Sound.run (h : Sound wire decode t) (moves : List (Move α)) :
    Sound wire decode (t.run wire decode moves) := by
  induction moves generalizing t with
  | nil => exact h
  | cons m rest ih => exact ih (h.step m)

/-! ## What is read -/

theorem understood_append (messages later : List α) :
    understood wire decode (messages ++ later) =
      understood wire decode messages ++ understood wire decode later :=
  List.filterMap_append

/-- The lines of messages are heard as what they say. -/
theorem filterMap_decoding (messages : List α) :
    (messages.map fun m => Text.toBytes (wire m)).filterMap (decoding decode) =
      understood wire decode messages := by
  rw [List.filterMap_map]
  exact congrArg (List.filterMap · messages) (funext fun m => decoding_toBytes (wire m))

/-- The lines that have arrived are those of messages that were written, from the first on. -/
theorem Sound.lines (h : Sound wire decode t) (hwire : ∀ m, newline ∉ Text.toBytes (wire m)) :
    t.intake.lines <+: t.written.map (fun m => Text.toBytes (wire m)) ∧
      (t.pipe = [] → t.intake.lines = t.written.map fun m => Text.toBytes (wire m)) := by
  -- what has arrived is cut out of what was written, and its lines with it
  have hsplit := split_write hwire t.written
  rw [← h.piped] at hsplit
  have hall : t.pipe = [] → t.intake.lines = t.written.map fun m => Text.toBytes (wire m) := by
    intro hpipe
    rw [hpipe, List.append_nil] at hsplit
    rw [Intake.lines, linesOf, hsplit]
    simp
  refine ⟨?_, hall⟩
  cases hended : t.intake.ended with
  | true => rw [hall (h.drained hended).2]
  | false =>
    rw [Intake.lines, hended, linesOf_false]
    rw [split_append] at hsplit
    exact ⟨_, congrArg Prod.fst hsplit⟩

theorem Sound.all_isText (h : Sound wire decode t)
    (hwire : ∀ m, newline ∉ Text.toBytes (wire m)) : t.intake.lines.all isText = true := by
  rw [List.all_eq_true]
  intro l hl
  obtain ⟨m, -, rfl⟩ := List.mem_map.mp ((h.lines hwire).1.subset hl)
  exact isText_toBytes (wire m)

theorem Sound.heard_sent (h : Sound wire decode t)
    (hwire : ∀ m, newline ∉ Text.toBytes (wire m)) :
    heard decode t.intake.lines <+: understood wire decode t.sent := by
  rw [heard_of_all (h.all_isText hwire), h.queued, understood_append, ← filterMap_decoding]
  exact ((h.lines hwire).1.filterMap _).trans (List.prefix_append _ _)

/-- When the receiver sees the end, everything that was sent has been read. -/
theorem Sound.complete (h : Sound wire decode t) (hwire : ∀ m, newline ∉ Text.toBytes (wire m))
    (hover : t.intake.isOver = true) : t.intake.taken = understood wire decode t.sent := by
  obtain ⟨htaken, hend⟩ := h.faithful.delivers.complete h.present hover
  have hended : t.intake.ended = true :=
    hend.resolve_right (by simp [h.all_isText hwire])
  obtain ⟨hdone, hpipe⟩ := h.drained hended
  rw [htaken, heard_of_all (h.all_isText hwire), (h.lines hwire).2 hpipe, filterMap_decoding,
    h.queued, (h.finished hdone).2, List.append_nil]

/-! ## The way is never blocked -/

theorem run_append (t : Transit α) (moves later : List (Move α)) :
    t.run wire decode (moves ++ later) = (t.run wire decode moves).run wire decode later :=
  List.foldl_append

/-- What remains between two points of a run in which the sender does nothing. -/
structure Onward (t t' : Transit α) : Prop where
  sent : t'.sent = t.sent
  gone : t'.outgoing.senderGone = t.outgoing.senderGone
  sendRoom : t'.outgoing.capacity = t.outgoing.capacity
  receiveRoom : t'.intake.channel.capacity = t.intake.channel.capacity

theorem Onward.trans {t' t'' : Transit α} (h : Onward t t') (h' : Onward t' t'') : Onward t t'' :=
  ⟨h'.sent.trans h.sent, h'.gone.trans h.gone, h'.sendRoom.trans h.sendRoom,
    h'.receiveRoom.trans h.receiveRoom⟩

/-- The writer can write everything that is queued, and is done then if the sender has left. -/
theorem Sound.exists_written (h : Sound wire decode t) :
    ∃ moves : List (Move α), Onward t (t.run wire decode moves) ∧
      (t.run wire decode moves).outgoing.queue = [] ∧
      (t.outgoing.senderGone = true → (t.run wire decode moves).writer.isDone = true) := by
  obtain ⟨queue, hqueue⟩ : ∃ queue, t.outgoing.queue = queue := ⟨_, rfl⟩
  induction queue generalizing t with
  | nil =>
    refine ⟨[.write], ?_⟩
    show Onward t (t.write wire) ∧ (t.write wire).outgoing.queue = [] ∧
      (_ → (t.write wire).writer.isDone = true)
    cases hdone : t.writer.isDone with
    | true =>
      rw [write_done hdone]
      exact ⟨⟨rfl, rfl, rfl, rfl⟩, hqueue, fun _ => hdone⟩
    | false =>
      rw [write_nil hdone hqueue, h.admits hdone, Bool.or_false]
      cases hgone : t.outgoing.senderGone with
      | true => exact ⟨⟨rfl, rfl, rfl, rfl⟩, rfl, fun _ => rfl⟩
      | false => exact ⟨⟨rfl, rfl, rfl, rfl⟩, hqueue, nofun⟩
  | cons m rest ih =>
    have hdone : t.writer.isDone = false := by
      by_contra hdone
      have hnone := (h.finished (by simpa using hdone)).2
      rw [hqueue] at hnone
      cases hnone
    have hwrite : t.write wire = _ := write_cons hdone h.openEnd hqueue
    have honward : Onward t (t.write wire) := by
      rw [hwrite]
      exact ⟨rfl, rfl, rfl, rfl⟩
    obtain ⟨moves, hlater, hempty, hfinished⟩ := ih h.write (congrArg (·.outgoing.queue) hwrite)
    rw [honward.gone] at hfinished
    exact ⟨.write :: moves, honward.trans hlater, hempty, hfinished⟩

/-- What was written can be read at once, so that nothing is left on the way to the reader. -/
theorem Sound.exists_idle (h : Sound wire decode t) :
    ∃ moves : List (Move α), Onward t (t.run wire decode moves) ∧
      (t.run wire decode moves).outgoing.queue = [] ∧ (t.run wire decode moves).pipe = [] ∧
      (t.outgoing.senderGone = true → (t.run wire decode moves).writer.isDone = true) := by
  obtain ⟨moves, honward, hqueue, hdone⟩ := h.exists_written
  have hchannel : ∀ (i : Intake α) bytes, (i.step decode (.feed bytes)).channel = i.channel :=
    fun i bytes => (Intake.step_feed decode i bytes).2
  refine ⟨moves ++ [.read (t.run wire decode moves).pipe.length], ?_⟩
  rw [run_append]
  exact ⟨honward.trans ⟨rfl, rfl, rfl, congrArg Channel.capacity (hchannel _ _)⟩, hqueue,
    List.drop_length, hdone⟩

/-- The move along the way that carries a message. -/
def Move.ofIntake : Intake.Move → Move α
  | .take => .take
  | .forward | .feed _ | .endInput | .close | .leave => .forward

theorem run_ofIntake (t : Transit α) {moves : List Intake.Move}
    (h : ∀ m ∈ moves, m.carries = true) :
    t.run wire decode (moves.map Move.ofIntake) =
      { t with intake := t.intake.run decode moves } := by
  induction moves generalizing t with
  | nil => rfl
  | cons m rest ih =>
    obtain ⟨hm, hrest⟩ := List.forall_mem_cons.mp h
    cases m with
    | feed | endInput | close | leave => cases hm
    | forward | take => exact ih _ hrest

/-- When nothing is left on the way to the reader, the receiver can take everything. -/
theorem Sound.exists_taken (h : Sound wire decode t)
    (hwire : ∀ m, newline ∉ Text.toBytes (wire m)) (hqueue : t.outgoing.queue = [])
    (hpipe : t.pipe = []) (hroom : 0 < t.intake.channel.capacity) :
    ∃ moves : List (Move α), (t.run wire decode moves).sent = t.sent ∧
      (t.run wire decode moves).outgoing.senderGone = t.outgoing.senderGone ∧
      (t.run wire decode moves).intake.taken = understood wire decode t.sent ∧
      (t.intake.ended = true → (t.run wire decode moves).intake.isOver = true) := by
  obtain ⟨moves, hcarries, htaken, hover⟩ := h.faithful.delivers.possible h.present hroom
  refine ⟨moves.map Move.ofIntake, ?_⟩
  rw [run_ofIntake _ hcarries]
  refine ⟨rfl, rfl, ?_, fun hended => hover (.inl hended)⟩
  rw [htaken, heard_of_all (h.all_isText hwire), (h.lines hwire).2 hpipe, filterMap_decoding,
    h.queued, hqueue, List.append_nil]

/-- What was sent can always be delivered, and the end with it if the sender has left. -/
theorem Sound.exists_delivered (h : Sound wire decode t)
    (hwire : ∀ m, newline ∉ Text.toBytes (wire m)) (hroom : 0 < t.intake.channel.capacity) :
    ∃ moves : List (Move α), (t.run wire decode moves).sent = t.sent ∧
      (t.run wire decode moves).outgoing.senderGone = t.outgoing.senderGone ∧
      (t.run wire decode moves).intake.taken = understood wire decode t.sent ∧
      (t.outgoing.senderGone = true → (t.run wire decode moves).intake.isOver = true) := by
  obtain ⟨moves, honward, hqueue, hpipe, hdone⟩ := h.exists_idle
  have hfits : 0 < (t.run wire decode moves).intake.channel.capacity := honward.receiveRoom ▸ hroom
  cases hgone : t.outgoing.senderGone with
  | false =>
    obtain ⟨later, hsent, hleft, htaken, -⟩ := (h.run moves).exists_taken hwire hqueue hpipe hfits
    refine ⟨moves ++ later, ?_⟩
    rw [run_append]
    exact ⟨hsent.trans honward.sent, hleft.trans (honward.gone.trans hgone),
      honward.sent ▸ htaken, nofun⟩
  | true =>
    -- the reader meets the end of the input before the receiver takes what is left
    have hend : (t.run wire decode moves).step wire decode .readEnd =
        { t.run wire decode moves with
          intake := (t.run wire decode moves).intake.step decode .endInput } :=
      if_pos (by rw [hdone hgone, hpipe]; rfl)
    have hsound := (h.run moves).readEnd
    rw [hend] at hsound
    obtain ⟨later, hsent, hleft, htaken, hover⟩ := hsound.exists_taken hwire hqueue hpipe hfits
    refine ⟨moves ++ .readEnd :: later, ?_⟩
    have hrun : t.run wire decode (moves ++ .readEnd :: later) =
        ((t.run wire decode moves).step wire decode .readEnd).run wire decode later :=
      run_append ..
    rw [hrun, hend]
    exact ⟨hsent.trans honward.sent, hleft.trans (honward.gone.trans hgone),
      htaken.trans (congrArg _ honward.sent), fun _ => hover rfl⟩

/-- As long as the sender has not left, it can send whatever it likes. -/
theorem Sound.exists_sent (h : Sound wire decode t) (hgone : t.outgoing.senderGone = false)
    (hroom : 0 < t.outgoing.capacity) (later : List α) :
    ∃ moves : List (Move α), (t.run wire decode moves).sent = t.sent ++ later ∧
      (t.run wire decode moves).outgoing.senderGone = false ∧
      (t.run wire decode moves).intake.channel.capacity = t.intake.channel.capacity := by
  induction later generalizing t with
  | nil => exact ⟨[], (List.append_nil _).symm, hgone, rfl⟩
  | cons m rest ih =>
    -- the writer makes room before each message
    obtain ⟨moves, honward, hqueue, -⟩ := h.exists_written
    have hpresent := honward.gone.trans hgone
    have hadmits : (t.run wire decode moves).outgoing.closed = false := by
      refine (h.run moves).admits ?_
      by_contra hdone
      have hleft := ((h.run moves).finished (by simpa using hdone)).1
      exact absurd (hpresent.symm.trans hleft) nofun
    have hfits : 0 < (t.run wire decode moves).outgoing.capacity := honward.sendRoom ▸ hroom
    have hsend : (t.run wire decode moves).send m = { t.run wire decode moves with
        outgoing := { (t.run wire decode moves).outgoing with queue := [m] }
        sent := t.sent ++ [m] } := by
      simp [Transit.send, Channel.send, Channel.hasRoom, hpresent, hadmits, hqueue, hfits,
        honward.sent]
    have hsound := (h.run moves).send m
    rw [hsend] at hsound
    obtain ⟨more, hmore, hstays, hreceive⟩ := ih hsound hpresent hfits
    refine ⟨moves ++ .send m :: more, ?_⟩
    have hrun : t.run wire decode (moves ++ .send m :: more) =
        ((t.run wire decode moves).send m).run wire decode more := run_append ..
    rw [hrun, hsend, hmore, hreceive]
    exact ⟨List.append_assoc .., hstays, honward.receiveRoom⟩

/-! ## Whole runs -/

/-- What holds of the messages that a receiver takes:
1. they are what the lines of the messages sent say, from the first on and in order;
2. when the receiver sees that nothing more will come, it has taken all of that;
3. whatever the sender still sends, the receiver can take it, and see the end if the sender has
   left, however little room there is in the channels. -/
structure Conveys (wire : α → String) (decode : Bytes → Option α) (t : Transit α) : Prop where
  inOrder : t.intake.taken <+: understood wire decode t.sent
  complete : t.intake.isOver = true → t.intake.taken = understood wire decode t.sent
  possible : 0 < t.outgoing.capacity → 0 < t.intake.channel.capacity →
    ∀ later : List α, (t.outgoing.senderGone = true → later = []) →
      ∃ moves : List (Move α), (t.run wire decode moves).sent = t.sent ++ later ∧
        (t.run wire decode moves).outgoing.senderGone = t.outgoing.senderGone ∧
        (t.run wire decode moves).intake.taken = understood wire decode (t.sent ++ later) ∧
        (t.outgoing.senderGone = true → (t.run wire decode moves).intake.isOver = true)

theorem Sound.conveys (h : Sound wire decode t)
    (hwire : ∀ m, newline ∉ Text.toBytes (wire m)) : Conveys wire decode t := by
  refine ⟨h.faithful.delivers.inOrder.trans (h.heard_sent hwire), h.complete hwire, ?_⟩
  intro hsend hreceive later hlater
  -- what is still to come is sent first, and delivered together with the rest
  obtain ⟨moves, hsent, hgone, hroom⟩ : ∃ moves : List (Move α),
      (t.run wire decode moves).sent = t.sent ++ later ∧
      (t.run wire decode moves).outgoing.senderGone = t.outgoing.senderGone ∧
      0 < (t.run wire decode moves).intake.channel.capacity := by
    cases hgone : t.outgoing.senderGone with
    | true =>
      obtain rfl := hlater hgone
      exact ⟨[], (List.append_nil _).symm, hgone, hreceive⟩
    | false =>
      obtain ⟨moves, hsent, hstays, hroom⟩ := h.exists_sent hgone hsend later
      exact ⟨moves, hsent, hstays, hroom ▸ hreceive⟩
  obtain ⟨final, hfinal, hleft, htaken, hover⟩ := (h.run moves).exists_delivered hwire hroom
  refine ⟨moves ++ final, ?_⟩
  rw [run_append]
  rw [hgone] at hleft hover
  rw [hsent] at hfinal htaken
  exact ⟨hfinal, hleft, htaken, hover⟩

theorem conveys_run (hwire : ∀ m, newline ∉ Text.toBytes (wire m)) (decode : Bytes → Option α)
    (sendRoom receiveRoom : Nat) (moves : List (Move α)) :
    Conveys wire decode ((fresh α sendRoom receiveRoom).run wire decode moves) :=
  ((sound_fresh wire decode sendRoom receiveRoom).run moves).conveys hwire

/-- What holds of the messages that a receiver takes when those that are sent can be read:
1. they are the messages that were sent, from the first on and in order;
2. when the receiver sees that nothing more will come, it has taken every one of them;
3. whatever the sender still sends, the receiver can take it, and see the end if the sender has
   left, however little room there is in the channels. -/
structure Lossless (sendable : α → Prop) (wire : α → String) (decode : Bytes → Option α)
    (t : Transit α) : Prop where
  inOrder : t.intake.taken <+: t.sent
  complete : t.intake.isOver = true → t.intake.taken = t.sent
  possible : 0 < t.outgoing.capacity → 0 < t.intake.channel.capacity →
    ∀ later : List α, (∀ m ∈ later, sendable m) → (t.outgoing.senderGone = true → later = []) →
      ∃ moves : List (Move α), (t.run wire decode moves).outgoing.senderGone =
          t.outgoing.senderGone ∧
        (t.run wire decode moves).intake.taken = t.sent ++ later ∧
        (t.outgoing.senderGone = true → (t.run wire decode moves).intake.isOver = true)

theorem understood_eq {messages : List α}
    (h : ∀ m ∈ messages, message? decode (wire m) = some m) :
    understood wire decode messages = messages := by
  rw [understood, List.filterMap_congr h]
  exact List.filterMap_some

theorem Conveys.lossless {sendable : α → Prop} (h : Conveys wire decode t)
    (hread : ∀ m, sendable m → message? decode (wire m) = some m)
    (hsent : ∀ m ∈ t.sent, sendable m) : Lossless sendable wire decode t := by
  have hall : ∀ {messages : List α}, (∀ m ∈ messages, sendable m) →
      understood wire decode messages = messages :=
    fun hmessages => understood_eq fun m hm => hread m (hmessages m hm)
  obtain ⟨inOrder, complete, possible⟩ := h
  rw [hall hsent] at inOrder complete
  refine ⟨inOrder, complete, fun hsend hreceive later hlater hgone => ?_⟩
  obtain ⟨moves, -, hleft, htaken, hover⟩ := possible hsend hreceive later hgone
  rw [hall (List.forall_mem_append.mpr ⟨hsent, hlater⟩)] at htaken
  exact ⟨moves, hleft, htaken, hover⟩

/-- **The receiver takes the very messages that were sent.** This holds of the messages of a host,
if their options are plain and not nested too deep, and of all messages of a worker, however the
parties take turns, wherever the reads cut the bytes and whatever room the channels have. -/
theorem lossless_run (sendRoom receiveRoom : Nat) :
    (∀ moves : List (Move HostMessage),
      let t := (fresh HostMessage sendRoom receiveRoom).run HostMessage.wire HostMessage.decode?
        moves
      (∀ m ∈ t.sent, m.Portable) →
        Lossless HostMessage.Portable HostMessage.wire HostMessage.decode? t) ∧
    ∀ moves : List (Move WorkerMessage),
      Lossless (fun _ => True) WorkerMessage.wire WorkerMessage.decode?
        ((fresh WorkerMessage sendRoom receiveRoom).run WorkerMessage.wire WorkerMessage.decode?
          moves) := by
  constructor
  · intro moves t hsent
    have hwire : ∀ m : HostMessage, newline ∉ Text.toBytes m.wire :=
      fun m => newline_notMem_render m.toJson
    have hread : ∀ m : HostMessage, m.Portable →
        message? HostMessage.decode? m.wire = some m :=
      fun m hm => (HostMessage.message?_wire hm.1).trans (if_pos hm.2)
    exact (conveys_run hwire _ sendRoom receiveRoom moves).lossless hread hsent
  · intro moves
    have hwire : ∀ m : WorkerMessage, newline ∉ Text.toBytes m.wire :=
      fun m => newline_notMem_render m.toJson
    exact (conveys_run hwire _ sendRoom receiveRoom moves).lossless
      (fun m _ => m.message?_wire) fun _ _ => trivial

/-- A configuration and a ping pass channels with room for one message each. -/
theorem lossless_run_configured :
    let configured := HostMessage.config (.obj [("limit", .int 1), ("text", .str "a\nb")])
    let t := (fresh HostMessage 1 1).run HostMessage.wire HostMessage.decode?
      [.send configured, .write, .read 7, .send (.prompt .ping), .leave]
    (∀ m ∈ t.sent, m.Portable) ∧
      ∃ moves : List (Move HostMessage),
        (t.run HostMessage.wire HostMessage.decode? moves).intake.taken =
            [configured, .prompt .ping] ∧
          (t.run HostMessage.wire HostMessage.decode? moves).intake.isOver = true := by
  intro configured t
  have hsent : t.sent = [configured, .prompt .ping] := rfl
  have hplain : configured.IsPlain :=
    ⟨⟨trivial, rfl, by simp [Json.Distinct]⟩, ⟨trivial, ⟨by decide, by decide⟩, trivial⟩,
      ⟨trivial, trivial, trivial⟩, trivial⟩
  have hportable : ∀ m ∈ t.sent, m.Portable := by
    rw [hsent]
    exact List.forall_mem_cons.mpr ⟨⟨hplain, by decide⟩,
      List.forall_mem_singleton.mpr ⟨trivial, by decide⟩⟩
  obtain ⟨moves, -, htaken, hover⟩ :=
    ((lossless_run 1 1).1 _ hportable).possible Nat.one_pos Nat.one_pos []
      (fun m hm => absurd hm List.not_mem_nil) fun _ => rfl
  rw [List.append_nil] at htaken
  exact ⟨hportable, moves, htaken.trans hsent, hover rfl⟩

end Transit

end Invigilation.Lines
