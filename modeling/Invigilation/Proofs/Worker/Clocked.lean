import Invigilation.Proofs.Worker.Dispatch

/-!
# A worker with a clock

A worker at its link, at some time. Everything that there is to do at a time can be done in any
order, and time goes on only when nothing is left to do.

- `Clocked`, `Clocked.Tick`, `Clocked.step`: the worker, and what can happen at the present time.
- `Clocked.Happens`, `Clocked.happens_step`: what a tick does, case by case.
- `Clocked.exists_tick_of_next`, `Clocked.isResting_of_next`: the moves of a worker that never lags
  behind are ticks, and it rests when none is due.
-/

namespace Invigilation

/-- A worker at its link, at some time. -/
structure Clocked where
  service : Service Hook
  now : Nat := 0

namespace Clocked

open Service (Turn)

/-- What can happen at the present time, or to it. The host neither goes away nor stops reading, so
both channels stay open. -/
inductive Tick where
  /-- A message arrives. -/
  | deliver (m : HostMessage)
  /-- A response is read. -/
  | collect
  /-- The worker begins. -/
  | begin
  | receive
  /-- The hook at a place completes, if it is due. -/
  | complete (place : Nat)
  | post
  /-- Time goes on. -/
  | pass (later : Nat)

/-- A worker that has not begun, at time zero. -/
def fresh (factory : Factory Hook) (promptRoom replyRoom : Nat) : Clocked :=
  ⟨.fresh factory promptRoom replyRoom, 0⟩

/-- Whether the worker has nothing more to do at the present time. -/
def isResting (c : Clocked) : Bool :=
  c.service.worker.started && c.service.link.prompts.queue.isEmpty &&
    c.service.worker.ready.isEmpty && c.service.worker.running.all (c.now < ·.due)

/-- A turn at the present time, with the messages that arrive and the responses that are posted. -/
def act (c : Clocked) (t : Turn Hook) :
    Clocked × List (Nat × HostMessage) × List (Nat × WorkerMessage) :=
  ({ c with service := (c.service.turn t).1 },
    (Service.admittedIn c.service t).map (c.now, ·),
    (Service.posted (c.service.turn t).2.1).map (c.now, ·))

/-- One tick, with the messages that arrive and the responses that are posted. Time goes on only
when the worker rests, and not beyond the time at which the next hook is due. -/
def step (c : Clocked) : Tick → Clocked × List (Nat × HostMessage) × List (Nat × WorkerMessage)
  | .deliver m => c.act (.near (.send m))
  | .collect => c.act (.near .receive)
  | .begin => c.act (.work .start)
  | .receive => c.act (.work (.receive c.now))
  | .complete place =>
    match c.service.worker.running[place]? with
    | some task =>
      if task.due ≤ c.now then c.act (.work (.complete place task.hook.succeeds)) else (c, [], [])
    | none => (c, [], [])
  | .post => c.act (.work .post)
  | .pass later =>
    if c.isResting ∧ c.now ≤ later ∧ c.service.worker.running.all (later ≤ ·.due) then
      ({ c with now := later }, [], [])
    else (c, [], [])

/-- A run of ticks, with the messages that arrive and the responses that are posted, and when. -/
def run (c : Clocked) : List Tick →
    Clocked × List (Nat × HostMessage) × List (Nat × WorkerMessage)
  | [] => (c, [], [])
  | t :: rest =>
    let (c, arrived, answered) := c.step t
    let (c, arrived', answered') := c.run rest
    (c, arrived ++ arrived', answered ++ answered')

variable {c : Clocked} {factory : Factory Hook}

theorem run_cons (c : Clocked) (t : Tick) (rest : List Tick) :
    c.run (t :: rest) =
      (((c.step t).1.run rest).1, (c.step t).2.1 ++ ((c.step t).1.run rest).2.1,
        (c.step t).2.2 ++ ((c.step t).1.run rest).2.2) := rfl

theorem run_append (c : Clocked) (ticks later : List Tick) :
    c.run (ticks ++ later) =
      (((c.run ticks).1.run later).1, (c.run ticks).2.1 ++ ((c.run ticks).1.run later).2.1,
        (c.run ticks).2.2 ++ ((c.run ticks).1.run later).2.2) := by
  induction ticks generalizing c with
  | nil => rfl
  | cons t rest ih =>
    rw [List.cons_append, run_cons, run_cons, ih]
    simp only [List.append_assoc]

/-! ## What a tick does -/

/-- The worker goes on, and both channels are open at both ends. -/
structure Serving (s : Service Hook) : Prop where
  going : s.worker.stopped = false
  reads : s.link.prompts.closed = false
  sends : s.link.replies.senderGone = false
  admits : s.link.replies.closed = false

/-- The effects of a tick, with the messages that arrive and the responses that are posted. -/
inductive Happens : Clocked → Clocked → List (Nat × HostMessage) → List (Nat × WorkerMessage) → Prop
  | idle (c : Clocked) : Happens c c [] []
  | deliver (now : Nat) (prompts : Channel HostMessage) (replies : Channel WorkerMessage)
      (w : Worker Hook) (m : HostMessage) :
      Happens ⟨⟨⟨prompts, replies⟩, w⟩, now⟩
        ⟨⟨⟨{ prompts with queue := prompts.queue ++ [m] }, replies⟩, w⟩, now⟩ [(now, m)] []
  | collect (now : Nat) (prompts : Channel HostMessage) (replies : Channel WorkerMessage)
      (w : Worker Hook) :
      Happens ⟨⟨⟨prompts, replies⟩, w⟩, now⟩ ⟨⟨⟨prompts, replies.receive.1⟩, w⟩, now⟩ [] []
  | begin (now : Nat) (l : Link) (w : Worker Hook) :
      Happens ⟨⟨l, w⟩, now⟩ ⟨⟨l, { w with started := true }⟩, now⟩ [] []
  | receive (now : Nat) (prompts : Channel HostMessage) (replies : Channel WorkerMessage)
      (w : Worker Hook) (m : HostMessage) (rest : List HostMessage)
      (hqueue : prompts.queue = m :: rest) :
      Happens ⟨⟨⟨prompts, replies⟩, w⟩, now⟩
        ⟨⟨⟨{ prompts with queue := rest }, replies⟩, (w.receive now m).1⟩, now⟩ [] []
  | complete (now : Nat) (l : Link) (w : Worker Hook) (place : Nat) (task : Worker.Task Hook)
      (htask : w.running[place]? = some task) (hdue : task.due ≤ now) :
      Happens ⟨⟨l, w⟩, now⟩ ⟨⟨l, (w.complete place task.hook.succeeds).1⟩, now⟩ [] []
  | post (now : Nat) (prompts : Channel HostMessage) (replies : Channel WorkerMessage)
      (w : Worker Hook) (p : Prompt) (rest : List Prompt) (hready : w.ready = p :: rest) :
      Happens ⟨⟨⟨prompts, replies⟩, w⟩, now⟩
        ⟨⟨⟨prompts, { replies with queue := replies.queue ++ [.response p] }⟩,
          { w with ready := rest }⟩, now⟩ [] [(now, .response p)]
  | pass (s : Service Hook) (now later : Nat) (hrest : (⟨s, now⟩ : Clocked).isResting = true)
      (hlater : now ≤ later) (hdues : ∀ task ∈ s.worker.running, later ≤ task.due) :
      Happens ⟨s, now⟩ ⟨s, later⟩ [] []

/-- A move of the worker that cannot happen changes nothing. -/
theorem act_work_of_quiet {m : Service.Move} (heffects : c.service.effects m = [])
    (hstep : c.service.step m = (c.service, [])) : c.act (.work m) = (c, [], []) := by
  unfold act Service.turn
  dsimp only
  rw [heffects, hstep]
  rfl

theorem started_of_isLive {w : Worker Hook} (h : w.isLive = true) : w.started = true := by
  simp [Worker.isLive] at h
  exact h.1

/-- A worker that has not begun begins. -/
theorem step_begin (hserving : Serving c.service) (hfresh : c.service.worker.started = false) :
    c.step .begin =
      (⟨⟨c.service.link, { c.service.worker with started := true }⟩, c.now⟩, [], []) := by
  show c.act (.work .start) = _
  unfold act
  simp [Service.turn, Service.step, Service.effects, Service.work, Service.workerMove?,
    Service.farSteps, Worker.step, Worker.admits, hfresh, hserving.going, Link.farAll,
    Service.admittedIn, Service.posted, Service.dealings]

/-- The worker receives the first message that is queued. -/
theorem step_receive (hserving : Serving c.service) (hstarted : c.service.worker.started = true)
    {m : HostMessage} {rest : List HostMessage}
    (hqueue : c.service.link.prompts.queue = m :: rest) :
    c.step .receive =
      (⟨⟨{ c.service.link with prompts := { c.service.link.prompts with queue := rest } },
        (c.service.worker.receive c.now m).1⟩, c.now⟩, [], []) := by
  have hlive : c.service.worker.isLive = true := by simp [Worker.isLive, hstarted, hserving.going]
  show c.act (.work (.receive c.now)) = _
  unfold act
  rw [Service.turn_receive hlive hserving.reads hqueue]
  rfl

/-- A hook that is due completes. -/
theorem step_complete (hserving : Serving c.service) (hstarted : c.service.worker.started = true)
    {place : Nat} {task : Worker.Task Hook}
    (htask : c.service.worker.running[place]? = some task) (hdue : task.due ≤ c.now) :
    c.step (.complete place) =
      (⟨⟨c.service.link, (c.service.worker.complete place task.hook.succeeds).1⟩, c.now⟩,
        [], []) := by
  have hlive : c.service.worker.isLive = true := by simp [Worker.isLive, hstarted, hserving.going]
  simp only [step, htask, if_pos hdue]
  unfold act
  rw [Service.turn_complete hlive]
  rfl

/-- The worker posts the response that is ready for longest. -/
theorem step_post (hserving : Serving c.service) (hstarted : c.service.worker.started = true)
    (hroom : c.service.link.replies.hasRoom = true) {p : Prompt} {rest : List Prompt}
    (hready : c.service.worker.ready = p :: rest) :
    c.step .post =
      (⟨⟨{ c.service.link with replies :=
          { c.service.link.replies with queue := c.service.link.replies.queue ++ [.response p] } },
        { c.service.worker with ready := rest }⟩, c.now⟩, [], [(c.now, .response p)]) := by
  have hlive : c.service.worker.isLive = true := by simp [Worker.isLive, hstarted, hserving.going]
  show c.act (.work .post) = _
  unfold act
  rw [Service.turn_post hlive hserving.sends hserving.admits hroom hready]
  rfl

/-- A message arrives if there is room for it. -/
theorem step_deliver (hserving : Serving c.service)
    (hroom : c.service.link.prompts.hasRoom = true) (m : HostMessage) :
    c.step (.deliver m) =
      (⟨⟨{ c.service.link with
          prompts := { c.service.link.prompts with queue := c.service.link.prompts.queue ++ [m] } },
        c.service.worker⟩, c.now⟩, [(c.now, m)], []) := by
  have hsend : c.service.link.prompts.send m =
      ({ c.service.link.prompts with queue := c.service.link.prompts.queue ++ [m] }, .sent) := by
    simp [Channel.send, hserving.reads, hroom]
  show c.act (.near (.send m)) = _
  unfold act
  simp only [Service.turn, Service.admittedIn, Service.admission, Link.near, hsend]
  rfl

theorem happens_begin (hserving : Serving c.service) :
    Happens c (c.step .begin).1 (c.step .begin).2.1 (c.step .begin).2.2 := by
  by_cases hstarted : c.service.worker.started = true
  · rw [show c.step .begin = (c, [], []) from act_work_of_quiet ?_ ?_]
    · exact .idle c
    · simp [Service.effects, Service.workerMove?, Worker.admits, hstarted]
    · simp [Service.step, Service.effects, Service.work, Service.workerMove?, Worker.step,
        Worker.admits, hstarted, Link.farAll]
  · rw [step_begin hserving (Bool.eq_false_iff.mpr hstarted)]
    exact .begin c.now c.service.link c.service.worker

/-- What the host sends arrives if there is room for it. -/
theorem happens_deliver (hserving : Serving c.service) (m : HostMessage) :
    Happens c (c.step (.deliver m)).1 (c.step (.deliver m)).2.1 (c.step (.deliver m)).2.2 := by
  by_cases hroom : c.service.link.prompts.hasRoom = true
  · rw [step_deliver hserving hroom]
    exact .deliver c.now c.service.link.prompts c.service.link.replies c.service.worker m
  · have hsend : c.service.link.prompts.send m = (c.service.link.prompts, .waiting) := by
      simp [Channel.send, hserving.reads, hroom]
    show Happens c (c.act (.near (.send m))).1 (c.act (.near (.send m))).2.1
      (c.act (.near (.send m))).2.2
    unfold act
    simp only [Service.turn, Service.admittedIn, Service.admission, Link.near, hsend]
    exact .idle c

theorem happens_receive (hserving : Serving c.service) :
    Happens c (c.step .receive).1 (c.step .receive).2.1 (c.step .receive).2.2 := by
  obtain ⟨heffects, hstep⟩ | ⟨wm, hmove, hlive, -⟩ := c.service.step_cases (.receive c.now)
  · rw [show c.step .receive = (c, [], []) from act_work_of_quiet heffects hstep]
    exact .idle c
  · obtain ⟨m, hhead, rfl⟩ := Option.map_eq_some_iff.mp hmove
    obtain ⟨rest, hqueue⟩ := List.head?_eq_some_iff.mp hhead
    rw [step_receive hserving (started_of_isLive hlive) hqueue]
    exact .receive c.now c.service.link.prompts c.service.link.replies c.service.worker m rest
      hqueue

theorem happens_complete (hserving : Serving c.service) (place : Nat) :
    Happens c (c.step (.complete place)).1 (c.step (.complete place)).2.1
      (c.step (.complete place)).2.2 := by
  cases htask : c.service.worker.running[place]? with
  | none =>
    simp only [step, htask]
    exact .idle c
  | some task =>
    by_cases hdue : task.due ≤ c.now
    · by_cases hstarted : c.service.worker.started = true
      · rw [step_complete hserving hstarted htask hdue]
        exact .complete c.now c.service.link c.service.worker place task htask hdue
      · have hdead : ¬ c.service.worker.isLive = true := by simp [Worker.isLive, hstarted]
        simp only [step, htask, if_pos hdue]
        rw [act_work_of_quiet]
        · exact .idle c
        · exact if_neg hdead
        · simp [Service.step, Service.effects, Service.work, Service.workerMove?, Worker.step,
            Worker.admits, hdead, Link.farAll]
    · simp only [step, htask, if_neg hdue]
      exact .idle c

theorem happens_post (hserving : Serving c.service) :
    Happens c (c.step .post).1 (c.step .post).2.1 (c.step .post).2.2 := by
  obtain ⟨heffects, hstep⟩ | ⟨wm, hmove, hlive, heffects, hstep⟩ := c.service.step_cases .post
  · rw [show c.step .post = (c, [], []) from act_work_of_quiet heffects hstep]
    exact .idle c
  · have hcan : Service.canPost c.service.link = true := by
      by_contra hcannot
      simp [Service.workerMove?, hcannot] at hmove
    have hroom : c.service.link.replies.hasRoom = true := by
      simpa [Service.canPost, hserving.admits] using hcan
    simp only [Service.workerMove?, if_pos hcan, Option.some.injEq] at hmove
    subst hmove
    cases hready : c.service.worker.ready with
    | nil =>
      -- there is nothing to post
      rw [show c.step .post = (c, [], []) from act_work_of_quiet ?_ ?_]
      · exact .idle c
      · rw [heffects]
        simp [Service.farSteps, hready]
      · have hpost : c.service.worker.step (.post (!c.service.link.replies.closed)) =
            (c.service.worker, []) := by
          rw [show c.service.worker.step (.post (!c.service.link.replies.closed)) =
            c.service.worker.post (!c.service.link.replies.closed) from if_pos hlive]
          simp [Worker.post, hready]
        rw [hstep, hpost]
        simp [Service.farSteps, hready, Link.farAll]
    | cons p rest =>
      rw [step_post hserving (started_of_isLive hlive) hroom hready]
      exact .post c.now c.service.link.prompts c.service.link.replies c.service.worker p rest hready

/-- Every tick has one of the effects. -/
theorem happens_step (hserving : Serving c.service) (t : Tick) :
    Happens c (c.step t).1 (c.step t).2.1 (c.step t).2.2 := by
  cases t with
  | deliver m => exact happens_deliver hserving m
  | collect =>
    exact .collect c.now c.service.link.prompts c.service.link.replies c.service.worker
  | begin => exact happens_begin hserving
  | receive => exact happens_receive hserving
  | complete place => exact happens_complete hserving place
  | post => exact happens_post hserving
  | pass later =>
    simp only [step]
    by_cases hpass : c.isResting ∧ c.now ≤ later ∧
        c.service.worker.running.all (later ≤ ·.due)
    · simp only [if_pos hpass]
      obtain ⟨hrest, hlater, hdues⟩ := hpass
      exact .pass c.service c.now later hrest hlater (by simpa using hdues)
    · simp only [if_neg hpass]
      exact .idle c

/-- A tick keeps the worker going, and the channels open. -/
theorem Happens.serving {c' : Clocked} {arrived : List (Nat × HostMessage)}
    {answered : List (Nat × WorkerMessage)} (h : Happens c c' arrived answered)
    (hserving : Serving c.service) : Serving c'.service := by
  obtain ⟨going, reads, sends, admits⟩ := hserving
  cases h with
  | idle => exact ⟨going, reads, sends, admits⟩
  | deliver | begin | post | pass => exact ⟨going, reads, sends, admits⟩
  | collect now prompts replies w =>
    have hkept : replies.receive.1.senderGone = replies.senderGone ∧
        replies.receive.1.closed = replies.closed := by
      unfold Channel.receive
      split <;> exact ⟨rfl, rfl⟩
    exact ⟨going, reads, hkept.1.trans sends, hkept.2.trans admits⟩
  | receive now prompts replies w m rest hqueue =>
    refine ⟨?_, reads, sends, admits⟩
    cases m <;> exact going
  | complete now l w place task htask hdue =>
    refine ⟨?_, reads, sends, admits⟩
    exact (Worker.calm_complete w place task.hook.succeeds).stopped.trans going

/-- A hook that completes is no longer among those that run. -/
theorem running_complete {w : Worker Hook} {place : Nat} {task : Worker.Task Hook}
    (htask : w.running[place]? = some task) (succeeds : Bool) :
    (w.complete place succeeds).1.running = w.running.eraseIdx place := by
  simp only [Worker.complete, htask]
  cases succeeds <;> rfl

/-! ## The moves that are due -/

theorem earliest_eq_none {tasks : List (Worker.Task Hook)} (h : Worker.earliest? tasks = none) :
    tasks = [] := by
  cases tasks with
  | nil => rfl
  | cons head rest =>
    unfold Worker.earliest? at h
    split at h
    · cases h
    · split at h <;> cases h

/-- The task that is due first stands at its place, and no other is due before it. -/
theorem earliest_spec {tasks : List (Worker.Task Hook)} {place : Nat} {task : Worker.Task Hook}
    (h : Worker.earliest? tasks = some (place, task)) :
    tasks[place]? = some task ∧ ∀ other ∈ tasks, task.due ≤ other.due := by
  induction tasks generalizing place task with
  | nil => cases h
  | cons head rest ih =>
    unfold Worker.earliest? at h
    cases hrest : Worker.earliest? rest with
    | none =>
      rw [hrest] at h
      cases h
      rw [earliest_eq_none hrest]
      exact ⟨rfl, by simp⟩
    | some found =>
      obtain ⟨hplace, hfirst⟩ := ih hrest
      rw [hrest] at h
      dsimp only at h
      by_cases hle : head.due ≤ found.2.due
      · rw [if_pos hle] at h
        cases h
        refine ⟨rfl, fun other hother => ?_⟩
        rcases List.mem_cons.mp hother with hhead | hmore
        · exact hhead ▸ Nat.le_refl _
        · exact Nat.le_trans hle (hfirst other hmore)
      · rw [if_neg hle] at h
        cases h
        refine ⟨hplace, fun other hother => ?_⟩
        rcases List.mem_cons.mp hother with hhead | hmore
        · exact hhead ▸ Nat.le_of_not_le hle
        · exact hfirst other hmore

/-- A worker to which no move is due rests, unless it waits for room. -/
theorem isResting_of_next (hserving : Serving c.service)
    (hnext : c.service.next? c.now = none)
    (hroom : c.service.link.replies.hasRoom = true) : c.isResting = true := by
  have hpost : Service.canPost c.service.link = true := by
    simp [Service.canPost, hroom]
  unfold Service.next? at hnext
  rw [if_neg (by simp [hserving.going])] at hnext
  by_cases hstarted : c.service.worker.started = true
  · rw [if_neg (by simp [hstarted])] at hnext
    by_cases hqueue : c.service.link.prompts.queue.isEmpty = true
    · rw [if_neg (by simp [hqueue])] at hnext
      cases hcompletion : c.service.worker.completion? c.now with
      | some found => simp [hcompletion] at hnext
      | none =>
        have hlater : c.service.worker.running.all (c.now < ·.due) = true := by
          unfold Worker.completion? at hcompletion
          split at hcompletion
          next place task hfirst =>
            by_cases hdue : task.due ≤ c.now
            · simp [hdue] at hcompletion
            · refine List.all_eq_true.mpr fun other hother => ?_
              have hle := (earliest_spec hfirst).2 other hother
              exact decide_eq_true (Nat.lt_of_lt_of_le (Nat.lt_of_not_le hdue) hle)
          next hnone => rw [earliest_eq_none hnone]; rfl
        cases hready : c.service.worker.ready with
        | nil => simp [isResting, hstarted, hqueue, hready, hlater]
        | cons p rest => simp [hcompletion, hpost, hready] at hnext
    · simp [hqueue] at hnext
  · simp [hstarted] at hnext

/-- A move that is due is a tick, as long as no end of the inbox is seen. -/
theorem exists_tick_of_next (hserving : Serving c.service)
    (hopen : c.service.link.prompts.senderGone = false) {m : Service.Move}
    (hnext : c.service.next? c.now = some m) : ∃ t, c.step t = c.act (.work m) := by
  unfold Service.next? at hnext
  split at hnext
  · cases hnext
  split at hnext
  · cases hnext
    exact ⟨.begin, rfl⟩
  split at hnext
  · cases hnext
    exact ⟨.receive, rfl⟩
  cases hcompletion : c.service.worker.completion? c.now with
  | some found =>
    rw [hcompletion] at hnext
    cases hnext
    unfold Worker.completion? at hcompletion
    split at hcompletion
    next place task hfirst =>
      by_cases hdue : task.due ≤ c.now
      · rw [if_pos hdue] at hcompletion
        cases hcompletion
        refine ⟨.complete place, ?_⟩
        simp only [step, (earliest_spec hfirst).1, if_pos hdue]
      · simp [hdue] at hcompletion
    next => cases hcompletion
  | none =>
    rw [hcompletion] at hnext
    dsimp only at hnext
    split at hnext
    · cases hnext
      exact ⟨.post, rfl⟩
    · simp [Channel.isEnded, hopen, hserving.reads] at hnext

end Clocked

end Invigilation
