import Invigilation.Proofs.Worker.Streamed

/-!
# A line worker does what a worker on channels does

In whatever order its reader, its loop, its hooks and its writer take turns, the loop of a line
worker goes through a run of a worker on channels, whose host hands over the messages that the lines
of the text spell. The writer stays until the last response was written.

- `LineWorker.Outward`: what holds between the responses that were posted and those written.
- `LineWorker.Refined`, `LineWorker.Refined.turns`: **the run on channels behind every run**.
- `LineWorker.Reached.exists_returned`: a line worker can return, wherever it is.
- `LineWorker.Refines`, `LineWorker.refines_turns`: what it has called and written by then.
-/

namespace Invigilation

open Text (Bytes)
open Service (Dealing Reaches received posted)

namespace LineWorker

variable {η : Type} {factory : Factory η} {text : String} {w : Streamed η}
  {handed : List HostMessage} {dealt : List (Dealing η)} {seen : List Event}

/-! ## From the worker to the output -/

/-- What holds between the responses that were posted and the messages that were written. -/
structure Outward (w : LineWorker η) (posts wrote : List WorkerMessage) : Prop where
  carried : wrote ++ w.service.link.replies.queue = posts
  reads : w.writer.outputOpen = true
  admits : w.writer.isDone = false → w.service.link.replies.closed = false
  /-- The writer is done only after the last response was written. -/
  done : w.writer.isDone = true →
    w.service.worker.stopped = true ∧ w.service.link.replies.queue = []
  left : w.service.worker.stopped = w.service.link.replies.senderGone

theorem outward_fresh (factory : Factory η) : Outward (fresh factory) [] [] :=
  ⟨rfl, rfl, fun _ => rfl, nofun, rfl⟩

variable {posts wrote : List WorkerMessage} {v : LineWorker η}

/-- The writer writes the response that was posted first, and is done when the worker has stopped
and none is left. -/
theorem Outward.write (h : Outward v posts wrote) :
    Outward v.write.1 posts (wrote ++ written v.write.2) := by
  obtain ⟨carried, reads, admits, done, left⟩ := id h
  have hwrite : v.write = ({ v with
      writer := (v.writer.write v.service.link.replies).1
      service := { v.service with link := { v.service.link with
        replies := (v.writer.write v.service.link.replies).2.1 } } },
      (v.writer.write v.service.link.replies).2.2.toList.map .wrote) := rfl
  rw [hwrite]
  cases hdone : v.writer.isDone with
  | true =>
    rw [Lines.Writer.write_done hdone]
    show Outward v posts (wrote ++ [])
    rwa [List.append_nil]
  | false =>
    cases hqueue : v.service.link.replies.queue with
    | cons m rest =>
      rw [Lines.Writer.write_cons hdone reads hqueue]
      refine ⟨?_, reads, admits, fun h => absurd (hdone.symm.trans h) nofun, left⟩
      show wrote ++ [m] ++ rest = posts
      rw [← carried, hqueue, List.append_assoc, List.singleton_append]
    | nil =>
      rw [Lines.Writer.write_nil hdone hqueue, admits hdone, Bool.or_false]
      cases hgone : v.service.link.replies.senderGone with
      | false =>
        show Outward v posts (wrote ++ [])
        rwa [List.append_nil]
      | true =>
        refine ⟨?_, reads, nofun, fun _ => ⟨left.trans hgone, rfl⟩, left⟩
        show wrote ++ [] ++ [] = posts
        rw [← carried, hqueue, List.append_nil]

/-- What does not touch the responses keeps it. -/
theorem Outward.untouched (h : Outward v posts wrote) {s : Service η}
    (hreplies : s.link.replies = v.service.link.replies)
    (hstopped : s.worker.stopped = v.service.worker.stopped) (reader : Lines.Reader HostMessage) :
    Outward ⟨reader, s, v.writer⟩ posts wrote := by
  obtain ⟨carried, reads, admits, done, left⟩ := h
  refine ⟨?_, reads, ?_, ?_, ?_⟩
  · rw [hreplies]
    exact carried
  · rw [hreplies]
    exact admits
  · rw [hreplies, hstopped]
    exact done
  · rw [hreplies, hstopped]
    exact left

/-- A response that is posted is queued for the writer. -/
theorem Outward.work (h : Outward v (posted dealt) wrote) (ends : Service.Open v.service)
    (m : Service.Move) :
    Outward { v with service := (v.service.step m).1 }
      (posted (dealt ++ (v.service.turn (.work m)).2.1)) wrote := by
  obtain ⟨carried, reads, admits, done, left⟩ := id h
  rw [Service.posted_append]
  have hmeets : Service.Meets v.service m (v.service.step m).1
      (v.service.turn (.work m)).2.1 := Service.meets_step ends m
  generalize (v.service.turn (.work m)).2.1 = passed at hmeets
  generalize (v.service.step m).1 = s' at hmeets
  cases hmeets with
  | quiet link stopped =>
    show Outward _ (posted dealt ++ []) wrote
    rw [List.append_nil]
    exact h.untouched (congrArg Link.replies link) stopped v.reader
  | receives live queue link stopped =>
    show Outward _ (posted dealt ++ []) wrote
    rw [List.append_nil]
    exact h.untouched (by rw [link]) stopped v.reader
  | @posts reply live hopen link stopped =>
    have hreplies := congrArg Link.replies link
    have hlive := Service.stopped_of_isLive live
    refine ⟨?_, reads, ?_, fun hdone => ?_, ?_⟩
    · rw [hreplies, ← carried, List.append_assoc]
      rfl
    · rw [hreplies]
      exact admits
    · have hover := (done hdone).1
      rw [hlive] at hover
      cases hover
    · rw [hreplies, stopped]
      exact left
  | stops ended link stopped =>
    have hreplies := congrArg Link.replies link
    show Outward _ (posted dealt ++ []) wrote
    rw [List.append_nil]
    refine ⟨?_, reads, ?_, fun hdone => ⟨stopped, ?_⟩, ?_⟩
    · rw [hreplies]
      exact carried
    · rw [hreplies]
      exact admits
    · rw [hreplies]
      exact (done hdone).2
    · rw [hreplies, stopped]
      rfl

/-! ## The run on channels -/

/-- A line worker has behaved like a worker on channels, whose host has handed over these messages
and with which this has passed. -/
structure Refined (factory : Factory η) (text : String) (w : Streamed η)
    (handed : List HostMessage) (dealt : List (Dealing η)) (seen : List Event) : Prop where
  channel : Reaches (Service.fresh factory Link.capacity Link.capacity) handed dealt
    (workerEvents seen) w.worker.service
  inward : Inward text w (received dealt)
  outward : Outward w.worker (posted dealt) (written seen)
  spared : ∀ p, .lost p ∉ workerEvents seen

theorem refined_start (factory : Factory η) (text : String) :
    Refined factory text (.start factory text) [] [] [] :=
  ⟨Service.reaches_refl _, inward_start factory text, outward_fresh factory,
    fun _ => List.not_mem_nil⟩

/-- A turn in which the worker and the writer do nothing. -/
theorem Refined.idle (h : Refined factory text w handed dealt seen) {w' : Streamed η}
    (hservice : w'.worker.service = w.worker.service) (hwriter : w'.worker.writer = w.worker.writer)
    (inward : Inward text w' (received dealt)) :
    Refined factory text w' handed dealt (seen ++ []) := by
  obtain ⟨channel, -, outward, spared⟩ := h
  rw [List.append_nil]
  refine ⟨?_, inward, ?_, spared⟩
  · rw [hservice]
    exact channel
  · have huntouched := outward.untouched (congrArg (·.link.replies) hservice)
      (congrArg (·.worker.stopped) hservice) w'.worker.reader
    rwa [← hwriter] at huntouched

/-- What the writer does to its channel is what a host can do. -/
theorem write_near (v : LineWorker η) (hreads : v.writer.outputOpen = true) :
    v.write.1.service = v.service ∨
      ∃ n : Link.NearStep,
        v.write.1.service = { v.service with link := v.service.link.near n } := by
  have hwrite : v.write.1.service = { v.service with link := { v.service.link with
      replies := (v.writer.write v.service.link.replies).2.1 } } := rfl
  rw [hwrite]
  cases hdone : v.writer.isDone with
  | true =>
    rw [Lines.Writer.write_done hdone]
    exact .inl rfl
  | false =>
    cases hqueue : v.service.link.replies.queue with
    | cons m rest =>
      rw [Lines.Writer.write_cons hdone hreads hqueue]
      refine .inr ⟨.receive, ?_⟩
      simp [Link.near, Channel.receive, hqueue]
    | nil =>
      rw [Lines.Writer.write_nil hdone hqueue]
      split
      · exact .inr ⟨.discard, rfl⟩
      · exact .inl rfl

theorem workerEvents_write (v : LineWorker η) : workerEvents v.write.2 = [] := by
  have hwrite : v.write.2 = (v.writer.write v.service.link.replies).2.2.toList.map .wrote := rfl
  rw [hwrite]
  cases (v.writer.write v.service.link.replies).2.2 <;> rfl

theorem Refined.turn_forward (h : Refined factory text w handed dealt seen) :
    ∃ handed', Refined factory text (w.turn .forward).1 handed' dealt
      (seen ++ (w.turn .forward).2) := by
  obtain ⟨channel, inward, outward, spared⟩ := h
  have hforward := inward.turn_forward
  show ∃ handed', Refined factory text (w.turn .forward).1 handed' dealt (seen ++ [])
  rw [List.append_nil]
  have hservice : (w.turn .forward).1.worker.service = { w.worker.service with
      link := { w.worker.service.link with
        prompts := (w.worker.reader.forward w.worker.service.link.prompts).2 } } := rfl
  have houtward : Outward (w.turn .forward).1.worker (posted dealt) (written seen) :=
    outward.untouched (s := (w.turn .forward).1.worker.service) rfl rfl _
  obtain hsame | ⟨n, hnear, -⟩ := forward_near w.worker.reader w.worker.service.link
  · refine ⟨handed, ?_, hforward, houtward, spared⟩
    rw [hservice, hsame]
    exact channel
  · refine ⟨handed ++ Service.admission w.worker.service.link n, ?_, hforward, houtward, spared⟩
    rw [hservice, hnear]
    exact channel.near n

theorem Refined.turn_write (h : Refined factory text w handed dealt seen) :
    ∃ handed', Refined factory text (w.turn .write).1 handed' dealt
      (seen ++ (w.turn .write).2) := by
  obtain ⟨channel, inward, outward, spared⟩ := h
  have hinward : Inward text (w.turn .write).1 (received dealt) := inward.untouched rfl rfl rfl
  have houtward : Outward (w.turn .write).1.worker (posted dealt)
      (written (seen ++ (w.turn .write).2)) := by
    rw [written_append]
    exact outward.write
  have hworker : workerEvents (seen ++ (w.turn .write).2) = workerEvents seen := by
    rw [workerEvents_append]
    show workerEvents seen ++ workerEvents w.worker.write.2 = _
    rw [workerEvents_write, List.append_nil]
  have hspared : ∀ p, .lost p ∉ workerEvents (seen ++ (w.turn .write).2) := by
    rwa [hworker]
  obtain hsame | ⟨n, hnear⟩ := write_near w.worker outward.reads
  · refine ⟨handed, ?_, hinward, houtward, hspared⟩
    rw [hworker]
    show Reaches _ _ _ _ w.worker.write.1.service
    rw [hsame]
    exact channel
  · refine ⟨handed ++ Service.admission w.worker.service.link n, ?_, hinward, houtward, hspared⟩
    rw [hworker]
    show Reaches _ _ _ _ w.worker.write.1.service
    rw [hnear]
    exact channel.near n

theorem workerEvents_map (events : List Worker.Event) :
    workerEvents (events.map .worker) = events := by
  rw [workerEvents, List.filterMap_map]
  exact List.filterMap_some

theorem written_map (events : List Worker.Event) : written (events.map .worker) = [] := by
  simp [written, List.filterMap_map]

theorem Refined.turn_work (h : Refined factory text w handed dealt seen) (m : Service.Move)
    (stays : m ≠ .abort) :
    Refined factory text (w.turn (.work m stays)).1 handed
      (dealt ++ (w.worker.service.turn (.work m)).2.1)
      (seen ++ (w.turn (.work m stays)).2) := by
  obtain ⟨channel, inward, outward, spared⟩ := h
  have ends := channel.kept.ends
  have hworker : workerEvents (seen ++ (w.turn (.work m stays)).2) =
      workerEvents seen ++ (w.worker.service.step m).2 := by
    rw [workerEvents_append]
    exact congrArg _ (workerEvents_map _)
  refine ⟨?_, inward.turn_work ends channel.answering.ends m stays, ?_, ?_⟩
  · rw [hworker]
    exact channel.work stays
  · have hwritten : written (seen ++ (w.turn (.work m stays)).2) = written seen := by
      rw [written_append]
      exact (congrArg _ (written_map _)).trans (List.append_nil _)
    rw [hwritten]
    exact outward.work ends m
  · intro p hlost
    rw [hworker, List.mem_append] at hlost
    obtain hbefore | hnow := hlost
    · exact spared p hbefore
    · -- the output is open as long as the loop lives, so the writer admits every response
      obtain ⟨hlive, hclosed⟩ := Service.closed_of_lost hnow
      cases hdone : w.worker.writer.isDone with
      | true =>
        have hover := (outward.done hdone).1
        rw [Service.stopped_of_isLive hlive] at hover
        cases hover
      | false =>
        rw [outward.admits hdone] at hclosed
        cases hclosed

/-- Every turn keeps it. -/
theorem Refined.turn (h : Refined factory text w handed dealt seen) (t : Turn η) :
    ∃ handed' dealt', Refined factory text (w.turn t).1 handed' dealt' (seen ++ (w.turn t).2) := by
  cases t with
  | arrive count =>
    obtain ⟨hservice, hwriter, hseen⟩ := w.turn_input (.inl ⟨count, rfl⟩)
    rw [hseen]
    exact ⟨handed, dealt, h.idle hservice hwriter (h.inward.turn_arrive count)⟩
  | finish =>
    obtain ⟨hservice, hwriter, hseen⟩ := w.turn_input (.inr rfl)
    rw [hseen]
    exact ⟨handed, dealt, h.idle hservice hwriter h.inward.turn_finish⟩
  | forward =>
    obtain ⟨handed', hforward⟩ := h.turn_forward
    exact ⟨handed', dealt, hforward⟩
  | work m stays => exact ⟨handed, _, h.turn_work m stays⟩
  | write =>
    obtain ⟨handed', hwrite⟩ := h.turn_write
    exact ⟨handed', dealt, hwrite⟩
  | refit factory' =>
    obtain ⟨channel, inward, outward, spared⟩ := h
    refine ⟨handed, dealt ++ [.refitted factory'], ?_⟩
    show Refined factory text (w.refit factory') _ _ (seen ++ [])
    rw [List.append_nil]
    refine ⟨channel.refit factory', ?_, ?_, spared⟩
    · rw [Service.received_append]
      show Inward text (w.refit factory') (received dealt ++ [])
      rw [List.append_nil]
      exact inward.untouched rfl rfl rfl
    · rw [Service.posted_append]
      show Outward (w.refit factory').worker (posted dealt ++ []) (written seen)
      rw [List.append_nil]
      exact outward.untouched (s := (w.refit factory').worker.service) rfl rfl _

/-- So does every run. -/
theorem Refined.turns (h : Refined factory text w handed dealt seen) (ts : List (Turn η)) :
    ∃ handed' dealt',
      Refined factory text (w.turns ts).1 handed' dealt' (seen ++ (w.turns ts).2) := by
  induction ts generalizing w handed dealt seen with
  | nil =>
    refine ⟨handed, dealt, ?_⟩
    show Refined factory text w handed dealt (seen ++ [])
    rwa [List.append_nil]
  | cons t rest ih =>
    obtain ⟨handed', dealt', hturn⟩ := h.turn t
    obtain ⟨handed'', dealt'', hrest⟩ := ih hturn
    rw [List.append_assoc] at hrest
    exact ⟨handed'', dealt'', hrest⟩

/-! ## The way to the end -/

/-- A state that a line worker at a text can come to. -/
def Reached (factory : Factory η) (text : String) (w : Streamed η) : Prop :=
  ∃ handed dealt seen, Refined factory text w handed dealt seen

theorem Reached.turns (h : Reached factory text w) (ts : List (Turn η)) :
    Reached factory text (w.turns ts).1 := by
  obtain ⟨handed, dealt, seen, hrefined⟩ := h
  obtain ⟨handed', dealt', hturns⟩ := hrefined.turns ts
  exact ⟨handed', dealt', _, hturns⟩

/-- All that is left of the text can arrive at once. -/
theorem exists_ended (w : Streamed η) : ∃ later, (w.turns later).1.ended = true := by
  by_cases hended : w.ended = true
  · exact ⟨[], hended⟩
  · refine ⟨[.arrive w.coming.length, .finish], ?_⟩
    have harrive : w.turn (.arrive w.coming.length) =
        ({ w with
          worker := (w.worker.step (.feed (w.coming.take w.coming.length))).1
          coming := w.coming.drop w.coming.length }, []) := if_neg hended
    show ((w.turn (.arrive w.coming.length)).1.turn .finish).1.ended = true
    rw [harrive]
    simp [Streamed.turn]

/-- The loop can begin, unless it has stopped. -/
theorem exists_begun (w : Streamed η) :
    ∃ later, (w.turns later).1.ended = w.ended ∧
      ((w.turns later).1.worker.service.worker.isLive = true ∨
        (w.turns later).1.worker.service.worker.stopped = true) := by
  cases hstopped : w.worker.service.worker.stopped with
  | true => exact ⟨[], rfl, .inr hstopped⟩
  | false =>
    cases hstarted : w.worker.service.worker.started with
    | true =>
      refine ⟨[], rfl, .inl ?_⟩
      show w.worker.service.worker.isLive = true
      simp [Worker.isLive, hstarted, hstopped]
    | false =>
      refine ⟨[.work .start (by decide)], rfl, .inl ?_⟩
      show (w.worker.service.worker.step .start).1.isLive = true
      simp [Worker.step, Worker.admits, Worker.isLive, hstarted, hstopped]

/-- Once the reader has put everything into its channel, and that is empty, the loop can stop. -/
theorem stopped_of_drained (hlive : w.worker.service.worker.isLive = true)
    (hwaiting : w.worker.reader.waiting = []) (hinlet : w.worker.reader.inlet.stopped = true)
    (hqueue : w.worker.service.link.prompts.queue = []) :
    (w.turns [.forward, .work .retire (by decide)]).1.worker.service.worker.stopped = true := by
  have hforward : (w.turn .forward).1.worker.service = { w.worker.service with
      link := { w.worker.service.link with prompts := w.worker.service.link.prompts.leave } } := by
    show { w.worker.service with link := { w.worker.service.link with
      prompts := (w.worker.reader.forward w.worker.service.link.prompts).2 } } = _
    rw [Lines.Reader.forward_nil hwaiting, if_pos hinlet]
  have hmove : ({ w.worker.service with link := { w.worker.service.link with
      prompts := w.worker.service.link.prompts.leave } } : Service η).workerMove? .retire =
      some .stop := by
    simp [Service.workerMove?, Channel.isEnded, Channel.leave, hlive, hqueue]
  show ((w.turn .forward).1.worker.service.step .retire).1.worker.stopped = true
  rw [hforward]
  simp [Service.step, Service.work, hmove, Worker.step, Worker.admits,
    Service.stopped_of_isLive hlive]

/-- Once the input has ended, what was read can be received, and then the loop can stop. -/
theorem Reached.exists_stopped (h : Reached factory text w) (hended : w.ended = true)
    (hlive : w.worker.service.worker.isLive = true) :
    ∃ later, (w.turns later).1.worker.service.worker.stopped = true := by
  -- a message takes two turns from the reader to the loop, and one from the channel
  obtain ⟨n, hn⟩ : ∃ n, n = 2 * w.worker.reader.waiting.length +
    w.worker.service.link.prompts.queue.length := ⟨_, rfl⟩
  induction n using Nat.strong_induction_on generalizing w with
  | _ n ih =>
    obtain ⟨handed, dealt, seen, hrefined⟩ := id h
    have hanswering := hrefined.channel.answering
    have hopen : w.worker.service.link.prompts.closed = false :=
      hanswering.ends.symm.trans (Service.stopped_of_isLive hlive)
    have after : ∀ t : Turn η, (w.turn t).1.ended = true →
        (w.turn t).1.worker.service.worker.isLive = true →
        2 * (w.turn t).1.worker.reader.waiting.length +
          (w.turn t).1.worker.service.link.prompts.queue.length < n →
        ∃ later, (w.turns later).1.worker.service.worker.stopped = true := by
      intro t hended' hlive' hless
      obtain ⟨later, hlater⟩ := ih _ hless (h.turns [t]) hended' hlive' rfl
      exact ⟨t :: later, hlater⟩
    cases hqueue : w.worker.service.link.prompts.queue with
    | cons m rest =>
      obtain ⟨hturn, -⟩ := hanswering.receive 0 hlive hqueue
      have hservice : (w.turn (.work (.receive 0) (by decide))).1.worker.service =
          ⟨{ w.worker.service.link with
              prompts := { w.worker.service.link.prompts with queue := rest } },
            (w.worker.service.worker.receive 0 m).1⟩ := congrArg (·.1) hturn
      refine after (.work (.receive 0) (by decide)) hended ?_ ?_
      · rw [hservice]
        cases m <;> exact hlive
      · rw [hservice, hn, hqueue]
        exact Nat.lt_succ_self _
    | nil =>
      cases hwaiting : w.worker.reader.waiting with
      | cons m rest =>
        have hfits : w.worker.service.link.prompts.hasRoom = true := by
          simp [Channel.hasRoom, hqueue, hrefined.inward.room, Link.capacity]
        have hforward : w.worker.reader.forward w.worker.service.link.prompts =
            ({ w.worker.reader with waiting := rest },
              { w.worker.service.link.prompts with queue := [m] }) := by
          simp [Lines.Reader.forward_cons hwaiting, hopen, hfits, hqueue]
        refine after .forward hended hlive ?_
        show 2 * (w.worker.reader.forward w.worker.service.link.prompts).1.waiting.length +
          (w.worker.reader.forward w.worker.service.link.prompts).2.queue.length < n
        rw [hforward, hn, hqueue, hwaiting]
        simp
        omega
      | nil =>
        obtain ⟨input, -, hfaithful⟩ := hrefined.inward.arrived
        have hinlet : w.worker.reader.inlet.stopped = true := by
          have hstopped := (hfaithful.follows hopen).stopped
          rw [show (w.intake (received dealt) input).ended = true from hended] at hstopped
          exact hstopped
        exact ⟨_, stopped_of_drained hlive hwaiting hinlet hqueue⟩

/-- Once the loop has stopped, the writer can write what is queued, and then it is done. -/
theorem Reached.exists_finished (h : Reached factory text w)
    (hstopped : w.worker.service.worker.stopped = true) :
    ∃ later, (w.turns later).1.worker.isFinished = true := by
  generalize hqueue : w.worker.service.link.replies.queue = queue
  induction queue generalizing w with
  | nil =>
    obtain ⟨handed, dealt, seen, hrefined⟩ := h
    cases hdone : w.worker.writer.isDone with
    | true => exact ⟨[], by simp [Streamed.turns, isFinished, hstopped, hdone]⟩
    | false =>
      refine ⟨[.write], ?_⟩
      have hwriter : (w.turn .write).1.worker.writer =
          (w.worker.writer.write w.worker.service.link.replies).1 := rfl
      show (w.worker.service.worker.stopped && (w.turn .write).1.worker.writer.isDone) = true
      rw [hstopped, hwriter, Lines.Writer.write_nil hdone hqueue, ← hrefined.outward.left, hstopped]
      rfl
  | cons m rest ih =>
    obtain ⟨handed, dealt, seen, hrefined⟩ := id h
    have hdone : w.worker.writer.isDone = false := by
      by_contra hdone
      have hnone := (hrefined.outward.done (by simpa using hdone)).2
      rw [hqueue] at hnone
      cases hnone
    have hreplies : (w.turn .write).1.worker.service.link.replies =
        (w.worker.writer.write w.worker.service.link.replies).2.1 := rfl
    obtain ⟨later, hlater⟩ := ih (h.turns [.write]) hstopped (by
      show (w.turn .write).1.worker.service.link.replies.queue = rest
      rw [hreplies, Lines.Writer.write_cons hdone hrefined.outward.reads hqueue])
    exact ⟨.write :: later, hlater⟩

/-- Wherever it is, a line worker at a text can return. -/
theorem Reached.exists_returned (h : Reached factory text w) :
    ∃ later, (w.turns later).1.worker.isFinished = true := by
  obtain ⟨arriving, hended⟩ := exists_ended w
  obtain ⟨beginning, hsame, hbegun⟩ := exists_begun (w.turns arriving).1
  have hreached := (h.turns arriving).turns beginning
  obtain ⟨draining, hstopped⟩ : ∃ draining,
      ((((w.turns arriving).1.turns beginning).1.turns
        draining).1.worker.service.worker.stopped = true) := by
    obtain hlive | hstopped := hbegun
    · exact hreached.exists_stopped (hsame.trans hended) hlive
    · exact ⟨[], hstopped⟩
  obtain ⟨writing, hfinished⟩ := (hreached.turns draining).exists_finished hstopped
  refine ⟨arriving ++ (beginning ++ (draining ++ writing)), ?_⟩
  rw [Streamed.turns_append, Streamed.turns_append, Streamed.turns_append]
  exact hfinished

/-! ## What comes of a run -/

/-- The response that was posted in an event, if one was. -/
def posted? : Worker.Event → Option Prompt
  | .posted p => some p
  | _ => none

/-- One line for each response that was posted, in the order in which they were. -/
def responseLines (events : List Worker.Event) : Bytes :=
  (events.filterMap posted?).flatMap fun p =>
    Lines.line ("\x7b\"type\":\"" ++ p.responseType.name ++ "\"\x7d")

theorem wire_response (p : Prompt) :
    (WorkerMessage.response p).wire =
      "\x7b\"type\":\"" ++ p.responseType.name ++ "\"\x7d" := by
  cases p <;> rfl

theorem responseLines_eq (events : List Worker.Event) :
    responseLines events = Lines.write WorkerMessage.wire (events.filterMap Service.post?) := by
  induction events with
  | nil => rfl
  | cons e rest ih =>
    cases e with
    | built | called | succeeded | failed | lost => exact ih
    | posted p =>
      show Lines.line _ ++ responseLines rest = Lines.line (WorkerMessage.response p).wire ++ _
      rw [ih, wire_response]
      rfl

/-- What holds of a line worker at a text, after some events:
1. its calls are the first of those that belong to the messages which the lines of the text spell;
2. its output begins the lines of the responses that were posted, and no response is lost;
3. once it has returned, what is seen of its loop is a whole run on these messages;
4. then it has made all of their calls, which are those of every whole run on them;
5. then its output is one line for each response that was posted, in their order. -/
structure Refines (factory : Factory η) (text : String) (v : LineWorker η) (seen : List Event) :
    Prop where
  inOrder : Worker.calls (workerEvents seen) <+:
    Worker.log (Lines.spelled HostMessage.decode? text)
  writes : outputOf seen <+: responseLines (workerEvents seen)
  spared : ∀ p, .lost p ∉ workerEvents seen
  serves : v.isFinished = true →
    Service.Serves factory Link.capacity Link.capacity
      (Lines.spelled HostMessage.decode? text) (workerEvents seen)
  calls : v.isFinished = true →
    Worker.calls (workerEvents seen) = Worker.log (Lines.spelled HostMessage.decode? text)
  agrees : v.isFinished = true → ∀ (factory' : Factory η) (promptRoom replyRoom : Nat)
    (events : List Worker.Event),
    Service.Serves factory' promptRoom replyRoom (Lines.spelled HostMessage.decode? text) events →
    Worker.calls (workerEvents seen) = Worker.calls events
  output : v.isFinished = true → outputOf seen = responseLines (workerEvents seen)

theorem Refined.refines (h : Refined factory text w handed dealt seen) :
    Refines factory text w.worker seen := by
  obtain ⟨channel, inward, outward, spared⟩ := h
  have hanswering := channel.answering
  have hposts : responseLines (workerEvents seen) =
      Lines.write WorkerMessage.wire (written seen ++ w.worker.service.link.replies.queue) := by
    rw [responseLines_eq, outward.carried, channel.kept.posts]
  have hinbox : received dealt <+: Lines.spelled HostMessage.decode? text := by
    obtain ⟨input, hinput, hfaithful⟩ := inward.arrived
    have hheard := (heard_of_arrived hinput w.ended inward.whole).1
    exact ((List.prefix_append _ _).trans hfaithful.inOrder).trans hheard
  have hserves : w.worker.isFinished = true →
      Service.Serves factory Link.capacity Link.capacity
        (Lines.spelled HostMessage.decode? text) (workerEvents seen) := by
    intro hfinished
    have hstopped : w.worker.service.worker.stopped = true := by
      simp [isFinished] at hfinished
      exact hfinished.1
    have hhanded := (hanswering.complete hstopped).resolve_left not_false
    rw [← inward.atEnd hstopped, hhanded]
    exact ⟨dealt, _, channel, hstopped⟩
  refine ⟨?_, ?_, spared, hserves, fun hfinished => (hserves hfinished).calls, ?_, ?_⟩
  · rw [hanswering.calls]
    split
    · exact Worker.log_mono hinbox
    · exact List.nil_prefix
  · rw [hposts, Lines.write, List.flatMap_append]
    exact List.prefix_append _ _
  · intro hfinished factory' promptRoom replyRoom events hevents
    rw [(hserves hfinished).calls, hevents.calls]
  · intro hfinished
    have hdone : w.worker.writer.isDone = true := by
      simp [isFinished] at hfinished
      exact hfinished.2
    rw [hposts, (outward.done hdone).2, List.append_nil]
    rfl

/-- **A line worker does what a worker on channels does** on the messages that the lines of a text
spell, in whatever order its parts take turns, however the text arrives, and however the factory
answers; and wherever it is, it can return. -/
theorem refines_turns (factory : Factory η) (text : String) (ts : List (Turn η)) :
    Refines factory text ((Streamed.start factory text).turns ts).1.worker
        ((Streamed.start factory text).turns ts).2 ∧
      ∃ later, ((Streamed.start factory text).turns (ts ++ later)).1.worker.isFinished = true := by
  obtain ⟨handed, dealt, hrefined⟩ := (refined_start factory text).turns ts
  refine ⟨hrefined.refines, ?_⟩
  have hreached : Reached factory text ((Streamed.start factory text).turns ts).1 :=
    ⟨handed, dealt, _, hrefined⟩
  obtain ⟨later, hfinished⟩ := hreached.exists_returned
  refine ⟨later, ?_⟩
  rw [Streamed.turns_append]
  exact hfinished

end LineWorker

end Invigilation
