import Invigilation.Proofs.Session.Life
import Invigilation.Proofs.Session.Verdict

/-!
# The wait for a response

A host that never lags behind settles everything that a worker has done before time goes on: it
takes the queued replies one after the other, then sees whether the worker has left, then looks at
the deadline. So the session with a worker that follows a script ends as the script says.

- `Session.run_post`, `Session.run_await`: the host's turns until it rests.
- `Session.Idle.run_playSteps`: the steps of a script against a host that waits.
- `Session.course_verdict`: **a round trip comes to its verdict**.
- `Session.exists_answered`: a session for a prompt and its own response can be answered.
-/

namespace Invigilation

open Link (FarStep)

namespace Session

/-! ## The host's turns until it rests -/

variable {s : Session} {p : Port} {deadline : Option Nat}

/-- A host that has room for its messages sends them all, one in each turn. -/
theorem run_post {pending : List HostMessage} (hphase : s.phase = .live p (.posting pending))
    (hopen : p.prompts.closed = false)
    (hroom : p.prompts.queue.length + pending.length ≤ p.prompts.capacity) (now : Nat) :
    ∃ p', p'.replies = p.replies ∧
      (s.run (List.replicate pending.length (.host now))).1.phase =
        .live p' (.posting []) := by
  -- each turn sends the first of the messages that are left, and the room for the others stays
  induction pending generalizing s p with
  | nil => exact ⟨p, rfl, hphase⟩
  | cons m rest ih =>
    rw [List.length_cons] at hroom
    have hsend : p.send m =
        ({ p with prompts := { p.prompts with queue := p.prompts.queue ++ [m] } }, .sent) := by
      obtain ⟨hclosed, -⟩ | ⟨-, -, heq⟩ | ⟨-, hfull, -⟩ := p.send_cases m
      · rw [hopen] at hclosed
        cases hclosed
      · exact heq
      · simp [Channel.hasRoom] at hfull
        omega
    have hstep : (s.step (.host now)).1.phase =
        .live { p with prompts := { p.prompts with queue := p.prompts.queue ++ [m] } }
          (.posting rest) := by
      rw [phase_step, hphase]
      simp only [stepPhase, post, hsend]
    obtain ⟨p', hreplies, hrest⟩ := ih hstep hopen (by simp; omega)
    exact ⟨p', hreplies, hrest⟩

/-- What a waiting host comes to when it has taken what is queued, if that is an end. -/
def settled? (response : MessageType) (replies : Channel WorkerMessage) (deadline : Option Nat)
    (now : Nat) : Option Outcome :=
  if replies.queue.any (·.messageType? = some response) then some .answered
  else if replies.senderGone then some (.failed (.disconnected response))
  else if deadline.any (· ≤ now) then some (.failed (.timedOut response))
  else none

/-- One turn of a waiting host that has a reply to take. -/
theorem phase_step_await_cons {m : WorkerMessage} {rest : List WorkerMessage}
    (hphase : s.phase = .live p (.awaiting deadline)) (hqueue : p.replies.queue = m :: rest)
    (now : Nat) :
    (s.step (.host now)).1.phase =
      if m.messageType? = some s.request.exchange.response then
        (conclude { p with replies := { p.replies with queue := rest } } now .answered).1
      else .live { p with replies := { p.replies with queue := rest } } (.awaiting deadline) := by
  have hreceive : p.receive =
      ({ p with replies := { p.replies with queue := rest } }, .received m) := by
    unfold Port.receive Channel.receive
    rw [hqueue]
  rw [phase_step, hphase]
  simp only [stepPhase, await, hreceive]
  split <;> rfl

/-- One turn of a waiting host that has no reply to take. -/
theorem phase_step_await_nil (hphase : s.phase = .live p (.awaiting deadline))
    (hqueue : p.replies.queue = []) (hadmits : p.replies.closed = false) (now : Nat) :
    (s.step (.host now)).1.phase =
      match settled? s.request.exchange.response p.replies deadline now with
      | some outcome => (conclude p now outcome).1
      | none => .live p (.awaiting deadline) := by
  rw [phase_step, hphase]
  simp only [stepPhase, await]
  unfold settled?
  rw [hqueue, List.any_nil, if_neg Bool.false_ne_true]
  obtain ⟨m, rest, hcons, -⟩ | ⟨-, hgone, heq⟩ | ⟨-, hjoined, heq⟩ := p.receive_cases
  · rw [hqueue] at hcons
    cases hcons
  · rw [hadmits, Bool.or_false] at hgone
    rw [heq, if_pos hgone]
  · rw [hadmits, Bool.or_false] at hjoined
    rw [heq, if_neg (by simp [hjoined])]
    dsimp only
    split <;> rfl

theorem settled?_eq_none_iff {response : MessageType} {replies : Channel WorkerMessage}
    {now : Nat} :
    settled? response replies deadline now = none ↔
      replies.queue.any (·.messageType? = some response) = false ∧
        replies.senderGone = false ∧ deadline.any (· ≤ now) = false := by
  unfold settled?
  cases replies.queue.any (·.messageType? = some response) with
  | true => simp
  | false =>
    cases replies.senderGone with
    | true => simp
    | false => cases deadline.any (· ≤ now) <;> simp

/-- A waiting host takes one reply in each turn, and in one more turn it comes to rest. -/
theorem run_await (hphase : s.phase = .live p (.awaiting deadline))
    (hadmits : p.replies.closed = false) (now : Nat) :
    match settled? s.request.exchange.response p.replies deadline now with
    | some outcome =>
      (s.run (List.replicate (p.replies.queue.length + 1) (.host now))).1.result? =
        some (now, outcome)
    | none =>
      (s.run (List.replicate (p.replies.queue.length + 1) (.host now))).1.phase =
        .live { p with replies := { p.replies with queue := [] } } (.awaiting deadline) := by
  -- by induction on what is queued: what is passed over does not count for what is settled
  induction hqueue : p.replies.queue generalizing s p with
  | nil =>
    have hstep := phase_step_await_nil hphase hqueue hadmits now
    show match settled? _ p.replies deadline now with
      | some outcome => (s.step (.host now)).1.result? = some (now, outcome)
      | none => (s.step (.host now)).1.phase = _
    cases hsettled : settled? s.request.exchange.response p.replies deadline now with
    | some outcome =>
      rw [hsettled] at hstep
      exact result?_of_over hstep
    | none =>
      rw [hsettled] at hstep
      rw [← hqueue]
      exact hstep
  | cons m rest ih =>
    have hstep := phase_step_await_cons hphase hqueue now
    rw [List.length_cons, List.replicate_succ, run_cons]
    by_cases hmatch : m.messageType? = some s.request.exchange.response
    · -- the response ends the wait, whatever is queued behind it
      rw [if_pos hmatch] at hstep
      have hsettled : settled? s.request.exchange.response p.replies deadline now =
          some .answered := if_pos (by rw [hqueue]; simp [hmatch])
      rw [hsettled]
      exact result?_run (result?_of_over hstep) _
    · rw [if_neg hmatch] at hstep
      have hsettled : settled? s.request.exchange.response p.replies deadline now =
          settled? s.request.exchange.response { p.replies with queue := rest } deadline now := by
        simp [settled?, hqueue, hmatch]
      rw [hsettled]
      exact ih hstep hadmits rfl

/-! ## A script against a waiting host -/

/-- A host that waits and has nothing more to do at a time. -/
structure Idle (s : Session) (p : Port) (deadline : Option Nat) (now : Nat) : Prop where
  phase : s.phase = .live p (.awaiting deadline)
  drained : p.replies.queue = []
  joined : p.replies.senderGone = false
  admits : p.replies.closed = false
  room : 0 < p.replies.capacity
  undue : deadline.any (· ≤ now) = false

variable {now : Nat}

/-- A session that is idle is not over, and shows its deadline. -/
theorem Idle.isOver (idle : Idle s p deadline now) : s.isOver = false := by
  simp [Session.isOver, result?, idle.phase]

theorem Idle.deadline? (idle : Idle s p deadline now) : s.deadline? = deadline := by
  simp [Session.deadline?, idle.phase]

/-- An idle host at the deadline, or its caller at the end of its patience, ends the wait. -/
theorem Idle.run_expiring (idle : Idle s p deadline now) (patience : Nat) :
    (s.run (s.expiring patience)).1.result? =
      some (within patience (verdictOf s.request.exchange.response deadline [])) := by
  have habandon : (s.run [.abandon patience]).1.result? = some (patience, .abandoned) := by
    have hstep : (s.step (.abandon patience)).1.phase =
        .over (some p.drop) patience .abandoned := by
      rw [phase_step, idle.phase]
      rfl
    exact result?_of_over hstep
  have hover : ¬ s.isOver = true := by simp [idle.isOver]
  unfold expiring
  rw [if_neg hover, idle.deadline?]
  cases hdeadline : deadline with
  | none => exact habandon
  | some d =>
    by_cases hd : d ≤ patience
    · have hstep := phase_step_await_nil idle.phase idle.drained idle.admits d
      have hsettled : settled? s.request.exchange.response p.replies deadline d =
          some (.failed (.timedOut s.request.exchange.response)) := by
        simp [settled?, idle.drained, idle.joined, hdeadline]
      rw [hsettled] at hstep
      rw [show within patience (verdictOf s.request.exchange.response (some d) []) = _ from
        if_pos hd]
      dsimp only
      rw [if_pos hd]
      exact result?_of_over hstep
    · rw [show within patience (verdictOf s.request.exchange.response (some d) []) = _ from
        if_neg hd]
      dsimp only
      rw [if_neg hd]
      exact habandon

/-- Once the worker has acted, the host settles what it did: the wait ends, or it goes on. -/
theorem Idle.run_settling (idle : Idle s p deadline now) (f : FarStep) :
    match settled? s.request.exchange.response (p.far f).1.replies deadline now with
    | some outcome =>
      (s.run (.far f :: (s.step (.far f)).1.settling now)).1.result? = some (now, outcome)
    | none =>
      ∃ p', Idle (s.run (.far f :: (s.step (.far f)).1.settling now)).1 p' deadline now := by
  have hphase : (s.step (.far f)).1.phase = .live (p.far f).1 (.awaiting deadline) := by
    rw [phase_step, idle.phase]
    rfl
  have hsettling : (s.step (.far f)).1.settling now =
      List.replicate ((p.far f).1.replies.queue.length + 1) (.host now) := by
    unfold settling backlog
    rw [hphase]
  obtain ⟨hclosed, hcapacity⟩ := p.replies_far_kept f
  have hadmits : (p.far f).1.replies.closed = false := by rw [hclosed]; exact idle.admits
  have hrun := run_await hphase hadmits now
  rw [run_cons, hsettling]
  cases hsettled : settled? s.request.exchange.response (p.far f).1.replies deadline now with
  | some outcome =>
    rw [show (s.step (.far f)).1.request = s.request from rfl, hsettled] at hrun
    exact hrun
  | none =>
    rw [show (s.step (.far f)).1.request = s.request from rfl, hsettled] at hrun
    obtain ⟨-, hjoined, hundue⟩ := settled?_eq_none_iff.mp hsettled
    exact ⟨_, hrun, rfl, hjoined, hadmits, by rw [hcapacity]; exact idle.room, hundue⟩

/-- What the host settles is what the verdict sees in the worker's act. -/
theorem Idle.verdictOf_cons (idle : Idle s p deadline now) (response : MessageType) (f : FarStep)
    (acts : List (Nat × FarStep)) :
    verdictOf response deadline ((now, f) :: acts) =
      match settled? response (p.far f).1.replies deadline now with
      | some outcome => some (now, outcome)
      | none => verdictOf response deadline acts := by
  by_cases hleave : f = .closeReplies
  · subst hleave
    rw [verdictOf_leave]
    simp [settled?, Port.replies_far_closeReplies, idle.drained]
  cases hreply : f.reply? with
  | none =>
    have hother : f.answers response = false := by simp [FarStep.answers, hreply]
    have hsame := Port.replies_far_of_other (p := p) hreply hleave
    rw [verdictOf_other now hother hleave, hsame]
    simp [settled?, idle.drained, idle.joined, idle.undue]
  | some m =>
    obtain rfl : f = .reply m := by
      cases f with
      | reply m' => cases hreply; rfl
      | takePrompt | closeReplies | closePrompts => cases hreply
    have hroom : p.replies.queue.length < p.replies.capacity := by
      rw [idle.drained]
      exact idle.room
    rw [Port.replies_far_reply idle.joined idle.admits hroom m]
    by_cases hmatch : m.messageType? = some response
    · rw [verdictOf_answer now (by simp [FarStep.answers, FarStep.reply?, hmatch])]
      simp [settled?, idle.drained, hmatch]
    · rw [verdictOf_other now (by simp [FarStep.answers, FarStep.reply?, hmatch]) hleave]
      simp [settled?, idle.drained, idle.joined, idle.undue, hmatch]

/-- A worker that acts after the caller has lost interest is not heard. -/
theorem within_of_late {response : MessageType} {later patience : Nat}
    {acts : List (Nat × FarStep)} (hacts : ∀ act ∈ acts, later ≤ act.1)
    (hundue : deadline.any (· ≤ later) = false) (hlate : patience < later) :
    within patience (verdictOf response deadline acts) = (patience, .abandoned) := by
  refine within_of_lt fun time outcome hverdict => ?_
  have hdeadline : ∀ d, deadline = some d → later ≤ d := by
    rintro d rfl
    have hd : ¬ d ≤ later := by simpa using hundue
    omega
  exact Nat.lt_of_lt_of_le hlate (le_of_verdictOf hacts hdeadline hverdict)

/-- **The steps of a script** lead a waiting host to the verdict on them. -/
theorem Idle.run_playSteps {patience : Nat} (idle : Idle s p deadline now)
    (hpatience : now ≤ patience) (steps : List Script.Step) :
    (s.run (Script.playSteps patience s now steps)).1.result? =
      some (within patience (verdictOf s.request.exchange.response deadline
        (Script.before deadline (Script.timed now steps)))) := by
  -- between two steps of the script the host is idle again, unless the wait is over
  induction steps generalizing s p now with
  | nil => exact idle.run_expiring patience
  | cons step rest ih =>
    have hover : ¬ s.isOver = true := by simp [idle.isOver]
    unfold Script.playSteps
    rw [if_neg hover]
    cases step with
    | act f =>
      have hbefore : Script.before deadline (Script.timed now (.act f :: rest)) =
          (now, f) :: Script.before deadline (Script.timed now rest) := by
        refine List.filter_cons_of_pos ?_
        have hundue := idle.undue
        cases deadline with
        | none => rfl
        | some d => simpa using hundue
      have hsettling := idle.run_settling f
      dsimp only
      rw [hbefore, idle.verdictOf_cons, run_append]
      cases hsettled : settled? s.request.exchange.response (p.far f).1.replies deadline now with
      | some outcome =>
        rw [hsettled] at hsettling
        rw [within_of_le hpatience]
        exact result?_run hsettling _
      | none =>
        rw [hsettled] at hsettling
        obtain ⟨p', hidle⟩ := hsettling
        have hrest := ih hidle hpatience
        rw [run_request] at hrest
        exact hrest
    | wait duration =>
      dsimp only
      rw [idle.deadline?]
      show (s.run (if _ then _ else _)).1.result? = some (within patience (verdictOf _ deadline
        (Script.before deadline (Script.timed (now + duration) rest))))
      cases hundue : deadline.any (· ≤ now + duration) with
      | true =>
        -- the deadline comes first
        rw [Bool.true_or, if_pos rfl, before_timed_of_due hundue]
        exact idle.run_expiring patience
      | false =>
        rw [Bool.false_or]
        by_cases hlate : patience < now + duration
        · -- the caller loses interest first
          have hacts : ∀ act ∈ Script.before deadline (Script.timed (now + duration) rest),
              now + duration ≤ act.1 := fun act hact =>
            le_of_mem_timed (List.mem_filter.mp hact).1
          have hnone : ∀ act ∈ ([] : List (Nat × FarStep)), now + duration ≤ act.1 := nofun
          rw [if_pos (by simpa using hlate), idle.run_expiring patience,
            within_of_late hacts hundue hlate, within_of_late hnone hundue hlate]
        · rw [if_neg (by simpa using hlate)]
          have hidle : Idle s p deadline (now + duration) := { idle with undue := hundue }
          exact ih hidle (Nat.le_of_not_lt hlate)

/-! ## From the opening to the verdict -/

/-- What the worker does before the host gets to run changes its port only. -/
theorem run_far {progress : Progress} (hphase : s.phase = .live p progress)
    (fs : List FarStep) :
    (s.run (fs.map .far)).1.phase = .live (p.farAll fs) progress := by
  induction fs generalizing s p with
  | nil => exact hphase
  | cons f rest ih =>
    refine ih (s := (s.step (.far f)).1) (p := (p.far f).1) ?_
    rw [phase_step, hphase]
    cases progress <;> rfl

/-- A host with room for its messages sends them all and settles what is queued. -/
theorem run_settling {pending : List HostMessage} (hphase : s.phase = .live p (.posting pending))
    (hopen : p.prompts.closed = false)
    (hroom : p.prompts.queue.length + pending.length ≤ p.prompts.capacity)
    (hadmits : p.replies.closed = false) (now : Nat) :
    match settled? s.request.exchange.response p.replies (s.request.timeout.map (now + ·)) now with
    | some outcome => (s.run (s.settling now)).1.result? = some (now, outcome)
    | none =>
      ∃ p', p'.replies = { p.replies with queue := [] } ∧
        (s.run (s.settling now)).1.phase =
          .live p' (.awaiting (s.request.timeout.map (now + ·))) := by
  have hsettling : s.settling now =
      List.replicate pending.length (.host now) ++
        .host now :: List.replicate (p.replies.queue.length + 1) (.host now) := by
    unfold settling backlog
    rw [hphase, ← List.replicate_succ, List.replicate_append_replicate]
    rfl
  -- first the messages, then the turn in which the wait begins, then the wait itself
  obtain ⟨p', hreplies, hposted⟩ := run_post hphase hopen hroom now
  obtain ⟨s', hs'⟩ : ∃ s', s' = ((s.run (List.replicate pending.length (.host now))).1.step
    (.host now)).1 := ⟨_, rfl⟩
  have hrequest : s'.request = s.request := by
    rw [hs']
    exact run_request s _
  have hwaiting : s'.phase = .live p' (.awaiting (s.request.timeout.map (now + ·))) := by
    rw [hs', phase_step, hposted, run_request]
    rfl
  have hwait := run_await hwaiting (by rw [hreplies]; exact hadmits) now
  rw [hrequest, hreplies] at hwait
  rw [hsettling, run_append, run_cons, ← hs']
  cases hsettled : settled? s.request.exchange.response p.replies
      (s.request.timeout.map (now + ·)) now with
  | some outcome =>
    rw [hsettled] at hwait
    exact hwait
  | none =>
    rw [hsettled] at hwait
    exact ⟨_, rfl, hwait⟩

/-- What the host settles when the wait begins is what the verdict sees in the acts before it. -/
theorem verdict_eq {r : RoundTrip} {script : Script} {replies : Channel WorkerMessage}
    (hqueue : replies.queue =
      (script.upfront.takeWhile (· ≠ .closeReplies)).filterMap FarStep.reply?)
    (hgone : replies.senderGone = decide (.closeReplies ∈ script.upfront)) :
    r.verdict script =
      match settled? r.exchange.response replies r.timeout 0 with
      | some outcome => some (0, outcome)
      | none => verdictOf r.exchange.response r.timeout
          (Script.before r.timeout (Script.timed 0 script.steps)) := by
  have hany : replies.queue.any (·.messageType? = some r.exchange.response) =
      (script.upfront.takeWhile (· ≠ .closeReplies)).any (·.answers r.exchange.response) := by
    rw [hqueue, List.any_filterMap]
    congr 1
  unfold RoundTrip.verdict Script.heard
  rw [verdictOf_upfront, ← hany]
  unfold settled?
  rw [hgone]
  cases replies.queue.any (·.messageType? = some r.exchange.response) with
  | true => rfl
  | false =>
    rw [if_neg Bool.false_ne_true, if_neg Bool.false_ne_true]
    by_cases hleft : .closeReplies ∈ script.upfront
    · rw [if_pos hleft, if_pos (decide_eq_true hleft)]
    · rw [if_neg hleft, if_neg (by simpa using hleft)]
      by_cases hdue : r.timeout.any (· ≤ 0) = true
      · -- no time at all
        rw [if_pos hdue, before_timed_of_due hdue]
        obtain ⟨d, hd, hzero⟩ := (Option.any_eq_true _ _).mp hdue
        obtain rfl : d = 0 := by simpa using hzero
        rw [hd]
        rfl
      · rw [if_neg hdue]

/-- A session that was opened on fresh channels comes to its verdict. -/
theorem run_play {pending : List HostMessage} {capacity : Nat} {script : Script}
    (hphase : s.phase = .live (.fresh capacity) (.posting pending))
    (hreads : .closePrompts ∉ script.upfront) (hsome : 0 < capacity)
    (hroom : pending.length ≤ capacity)
    (hqueued : (script.upfront.filterMap FarStep.reply?).length ≤ capacity) (patience : Nat) :
    (s.run (script.play patience s)).1.result? =
      some (within patience (s.request.verdict script)) := by
  -- what the worker has done by the time the host gets to run
  obtain ⟨acted, hacted⟩ : ∃ acted, acted = (s.run (script.upfront.map .far)).1 := ⟨_, rfl⟩
  have hacting : acted.phase =
      .live ((Port.fresh capacity).farAll script.upfront) (.posting pending) := by
    rw [hacted]
    exact run_far hphase script.upfront
  have hrequest : acted.request = s.request := by rw [hacted, run_request]
  have hprompts : ((Port.fresh capacity).farAll script.upfront).prompts = { capacity } :=
    Port.prompts_farAll rfl hreads
  have hfits : (Port.fresh capacity).replies.queue.length +
      (script.upfront.filterMap FarStep.reply?).length ≤ capacity := by
    show 0 + _ ≤ capacity
    omega
  have hreplies := Port.replies_farAll (p := .fresh capacity) rfl rfl hfits
  have hadmits : ((Port.fresh capacity).farAll script.upfront).replies.closed = false := by
    rw [hreplies]
    rfl
  have hsettling := run_settling hacting (by rw [hprompts])
    (by rw [hprompts]; show 0 + _ ≤ capacity; omega) hadmits 0
  have hstart : s.request.timeout.map (0 + ·) = s.request.timeout := by simp
  rw [hrequest, hstart] at hsettling
  have hplay : s.run (script.play patience s) = s.run ((script.upfront.map .far ++
      acted.settling 0) ++ Script.playSteps patience (acted.run (acted.settling 0)).1 0
        script.steps) := by
    rw [hacted, ← congrArg Prod.fst (run_append s (script.upfront.map .far) _)]
    rfl
  have hqueue : ((Port.fresh capacity).farAll script.upfront).replies.queue =
      (script.upfront.takeWhile (· ≠ .closeReplies)).filterMap FarStep.reply? := by
    rw [hreplies]
    rfl
  have hgone : ((Port.fresh capacity).farAll script.upfront).replies.senderGone =
      decide (.closeReplies ∈ script.upfront) := by
    rw [hreplies]
  rw [hplay, run_append, run_append, ← hacted, verdict_eq hqueue hgone]
  dsimp only
  cases hsettled : settled? s.request.exchange.response
      ((Port.fresh capacity).farAll script.upfront).replies s.request.timeout 0 with
  | some outcome =>
    rw [hsettled] at hsettling
    dsimp only
    rw [within_of_le (Nat.zero_le patience)]
    exact result?_run hsettling _
  | none =>
    rw [hsettled] at hsettling
    obtain ⟨p', hdrained, hwaiting⟩ := hsettling
    obtain ⟨-, hjoined, hundue⟩ := settled?_eq_none_iff.mp hsettled
    have hidle : Idle (acted.run (acted.settling 0)).1 p' s.request.timeout 0 := {
      phase := hwaiting
      drained := by rw [hdrained]
      joined := by rw [hdrained]; exact hjoined
      admits := by rw [hdrained]; exact hadmits
      room := by rw [hdrained, hreplies]; exact hsome
      undue := hundue }
    have hsteps := hidle.run_playSteps (Nat.zero_le patience) script.steps
    rw [run_request, hrequest] at hsteps
    exact hsteps

/-- A session with a prompt to send comes to its verdict. -/
theorem result?_course {r : RoundTrip} {messages : List HostMessage}
    (hmessages : r.messages = .ok messages) (entryPoint : String) (script : Script)
    {capacity : Nat} (hreads : .closePrompts ∉ script.upfront) (hsome : 0 < capacity)
    (hroom : messages.length ≤ capacity)
    (hqueued : (script.upfront.filterMap FarStep.reply?).length ≤ capacity) (patience : Nat) :
    let s : Session := ⟨r, entryPoint, .unopened⟩
    (s.run (s.course (fun _ => .ok (script.farEnd capacity)) patience)).1.result? =
      some (within patience (r.verdict script)) := by
  intro s
  have hphase : (s.step (.opening 0 (.ok (.fresh capacity)))).1.phase =
      .live (.fresh capacity) (.posting messages) :=
    congrArg (·.1.phase) (step_opening hmessages entryPoint 0 (.fresh capacity))
  exact run_play hphase hreads hsome hroom hqueued patience

/-- **A round trip comes to its verdict.** The worker may have replies queued already and may do
anything afterwards, as long as its receiving end is there with room for the messages. If the
caller's patience ends before there is a verdict, the session was still going on. -/
theorem course_verdict (prompt : Prompt) (response : MessageType) (timeout : Option Nat)
    (config : Option Json) (entryPoint : String) (script : Script) (capacity patience : Nat)
    (hreads : .closePrompts ∉ script.upfront) (hroom : config.toList.length + 1 ≤ capacity)
    (hqueued : (script.upfront.filterMap FarStep.reply?).length ≤ capacity) :
    let r : RoundTrip := ⟨⟨prompt.messageType, response⟩, timeout, config⟩
    let s : Session := ⟨r, entryPoint, .unopened⟩
    (s.run (s.course (fun _ => .ok (script.farEnd capacity)) patience)).1.result? =
      some (within patience (r.verdict script)) := by
  intro r s
  have hmessages : r.messages = .ok (config.toList.map .config ++ [.prompt prompt]) :=
    messages_of_prompt rfl
  exact result?_course hmessages entryPoint script hreads (by omega) (by simpa using hroom)
    hqueued patience

/-- A worker that echoes, and only then says that the attempt was started, one time unit before the
deadline. -/
theorem course_verdict_start :
    let script : Script := ⟨[.reply .unknown], [.wait 2, .act (.reply (.response .ping)), .wait 2,
      .act (.reply (.response .start)), .act .closeReplies]⟩
    let s : Session := ⟨⟨⟨.startExamAttempt, .examAttemptStarted⟩, some 5, some (.obj [])⟩,
      "worker", .unopened⟩
    (s.run (s.course (fun _ => .ok (script.farEnd 2)) 10)).1.result? = some (4, .answered) := by
  intro script s
  have hreads : .closePrompts ∉ script.upfront := by decide
  have hroom : (some (Json.obj [])).toList.length + 1 ≤ 2 := by decide
  have hqueued : (script.upfront.filterMap FarStep.reply?).length ≤ 2 := by decide
  exact course_verdict .start .examAttemptStarted (some 5) (some (.obj [])) "worker" script 2 10
    hreads hroom hqueued

/-- A worker that has the response ready answers at once. -/
theorem exists_answered {r : RoundTrip} {p : Prompt} (hexchange : r.exchange = p.exchange)
    (entryPoint : String) :
    ∃ moves, (run ⟨r, entryPoint, .unopened⟩ moves).1.result? = some (0, .answered) := by
  have hmessages : r.messages = .ok (r.config.toList.map .config ++ [.prompt p]) :=
    messages_of_prompt (by rw [hexchange]; rfl)
  have hanswers : (FarStep.reply (.response p)).answers r.exchange.response = true := by
    rw [hexchange]
    simp [FarStep.answers, FarStep.reply?, WorkerMessage.messageType?, Prompt.exchange]
  have hverdict : r.verdict ⟨[.reply (.response p)], []⟩ = some (0, .answered) :=
    verdictOf_answer 0 hanswers
  have hcourse := result?_course hmessages entryPoint ⟨[.reply (.response p)], []⟩ (by simp)
    (by simp) (Nat.le_refl _) (by simp [FarStep.reply?]) 0
  rw [hverdict, within_of_le (Nat.le_refl 0)] at hcourse
  exact ⟨_, hcourse⟩

end Session

end Invigilation
