import Invigilation.Proofs.Worker.Clocked

/-!
# Arrivals at any times

A worker whose responses are read finishes what there is to do at any time, so that time can go on
and messages can arrive whenever they like.

- `Clocked.Reaches`: what a worker can come to while given messages arrive.
- `Clocked.load`, `Clocked.exists_rest`: a worker comes to rest while time stands still.
- `Clocked.exists_run`: **messages can arrive at any times**.
-/

namespace Invigilation.Clocked

variable {c : Clocked} {factory : Factory Hook} {arrived : List (Nat × HostMessage)}
  {answered : List (Nat × WorkerMessage)}

/-! ## What a worker can come to -/

/-- A worker that goes on, with some room at its link. -/
structure Able (c : Clocked) : Prop where
  serving : Serving c.service
  promptRoom : 0 < c.service.link.prompts.capacity
  replyRoom : 0 < c.service.link.replies.capacity

theorem Able.happens {c' : Clocked} {arrived' : List (Nat × HostMessage)}
    {answered' : List (Nat × WorkerMessage)} (able : Able c)
    (effect : Happens c c' arrived' answered') : Able c' := by
  have hserving := effect.serving able.serving
  obtain ⟨-, promptRoom, replyRoom⟩ := able
  cases effect with
  | idle | deliver | begin | receive | complete | post | pass =>
    exact ⟨hserving, promptRoom, replyRoom⟩
  | collect now prompts replies w =>
    have hkept : replies.receive.1.capacity = replies.capacity := by
      unfold Channel.receive
      split <;> rfl
    exact ⟨hserving, promptRoom, Nat.lt_of_lt_of_eq replyRoom hkept.symm⟩

theorem Able.run (able : Able c) (ticks : List Tick) : Able (c.run ticks).1 := by
  induction ticks generalizing c with
  | nil => exact able
  | cons t rest ih => exact ih (able.happens (happens_step able.serving t))

/-- What a worker can come to while these messages arrive. -/
def Reaches (c c' : Clocked) (arrived : List (Nat × HostMessage)) : Prop :=
  ∃ ticks answered, c.run ticks = (c', arrived, answered)

theorem Reaches.refl (c : Clocked) : Reaches c c [] := ⟨[], [], rfl⟩

theorem Reaches.trans {c' c'' : Clocked} {arrived' : List (Nat × HostMessage)}
    (h : Reaches c c' arrived) (h' : Reaches c' c'' arrived') :
    Reaches c c'' (arrived ++ arrived') := by
  obtain ⟨ticks, answered, hrun⟩ := h
  obtain ⟨ticks', answered', hrun'⟩ := h'
  refine ⟨ticks ++ ticks', answered ++ answered', ?_⟩
  rw [run_append, hrun, hrun']

theorem reaches_step {c' : Clocked} {answered : List (Nat × WorkerMessage)} {t : Tick}
    (h : c.step t = (c', arrived, answered)) : Reaches c c' arrived := by
  refine ⟨[t], answered, ?_⟩
  rw [run_cons, h]
  show (c', arrived ++ [], answered ++ []) = _
  rw [List.append_nil, List.append_nil]

theorem Able.reaches {c' : Clocked} (able : Able c) (h : Reaches c c' arrived) : Able c' := by
  obtain ⟨ticks, answered, hrun⟩ := h
  have hable := able.run ticks
  rw [hrun] at hable
  exact hable

/-- All responses that are posted can be read, which makes room for others. -/
theorem reaches_room (c : Clocked) :
    Reaches c ⟨⟨{ c.service.link with replies := { c.service.link.replies with queue := [] } },
      c.service.worker⟩, c.now⟩ [] := by
  obtain ⟨⟨⟨prompts, replies⟩, w⟩, now⟩ := c
  obtain ⟨capacity, queue, gone, closed⟩ := replies
  induction queue with
  | nil => exact .refl _
  | cons m rest ih =>
    have hstep : Clocked.step ⟨⟨⟨prompts, ⟨capacity, m :: rest, gone, closed⟩⟩, w⟩, now⟩ .collect =
        (⟨⟨⟨prompts, ⟨capacity, rest, gone, closed⟩⟩, w⟩, now⟩, [], []) := rfl
    exact (reaches_step hstep).trans ih

/-! ## Coming to rest -/

/-- How many of its turns a worker certainly needs at most until it rests. -/
def load (c : Clocked) : Nat :=
  3 * c.service.link.prompts.queue.length + 2 * c.service.worker.running.length +
    c.service.worker.ready.length + if c.service.worker.started then 0 else 1

/-- A message that is received starts one hook at most. -/
theorem load_receive (hstarted : c.service.worker.started = true) {m : HostMessage}
    {rest : List HostMessage} (hqueue : c.service.link.prompts.queue = m :: rest) :
    (⟨⟨{ c.service.link with prompts := { c.service.link.prompts with queue := rest } },
      (c.service.worker.receive c.now m).1⟩, c.now⟩ : Clocked).load < c.load := by
  have hready : (c.service.worker.receive c.now m).1.ready = c.service.worker.ready := by
    cases m <;> rfl
  have hbegun : (c.service.worker.receive c.now m).1.started = true := by
    cases m <;> exact hstarted
  have hrunning : (c.service.worker.receive c.now m).1.running.length ≤
      c.service.worker.running.length + 1 := by
    cases m with
    | config | unknown => exact Nat.le_succ _
    | prompt p =>
      simp only [Worker.receive, List.length_append]
      split <;> simp
  simp only [load, hready, hbegun, hstarted, hqueue, List.length_cons]
  omega

/-- A hook that completes has one response at most. -/
theorem load_complete {place : Nat} {task : Worker.Task Hook}
    (htask : c.service.worker.running[place]? = some task) :
    (⟨⟨c.service.link, (c.service.worker.complete place task.hook.succeeds).1⟩, c.now⟩ :
      Clocked).load < c.load := by
  have hlength := List.length_eraseIdx_of_lt (List.getElem?_eq_some_iff.mp htask).1
  have hbegun := (Worker.calm_complete c.service.worker place task.hook.succeeds).started
  have hready : (c.service.worker.complete place task.hook.succeeds).1.ready.length ≤
      c.service.worker.ready.length + 1 := by
    simp only [Worker.complete, htask]
    cases task.hook.succeeds <;> simp
  have hsome : 0 < c.service.worker.running.length :=
    List.length_pos_of_mem (List.mem_of_getElem? htask)
  simp only [load, running_complete htask, hbegun]
  omega

/-- A worker that does not rest has a turn to take. -/
theorem exists_turn (able : Able c) (hbusy : c.isResting = false) :
    ∃ c', Reaches c c' [] ∧ c'.now = c.now ∧ c'.load < c.load := by
  obtain ⟨hserving, -, hreplyRoom⟩ := able
  by_cases hstarted : c.service.worker.started = true
  · cases hqueue : c.service.link.prompts.queue with
    | cons m rest =>
      exact ⟨_, reaches_step (step_receive hserving hstarted hqueue), rfl,
        load_receive hstarted hqueue⟩
    | nil =>
      by_cases hdue : ∃ task ∈ c.service.worker.running, task.due ≤ c.now
      · obtain ⟨task, hmem, hdue⟩ := hdue
        obtain ⟨place, htask⟩ := List.getElem?_of_mem hmem
        exact ⟨_, reaches_step (step_complete hserving hstarted htask hdue), rfl,
          load_complete htask⟩
      · have hlater : c.service.worker.running.all (c.now < ·.due) = true := by
          simpa using hdue
        cases hready : c.service.worker.ready with
        | nil => simp [isResting, hstarted, hqueue, hready, hlater] at hbusy
        | cons p rest =>
          -- the queue of responses is read first, so that there is room
          have hpost := step_post (c := ⟨⟨{ c.service.link with
            replies := { c.service.link.replies with queue := [] } }, c.service.worker⟩, c.now⟩)
            ⟨hserving.going, hserving.reads, hserving.sends, hserving.admits⟩ hstarted
            (by simpa [Channel.hasRoom] using hreplyRoom) hready
          refine ⟨_, (reaches_room c).trans (reaches_step hpost), rfl, ?_⟩
          simp [load, hready]
  · have hfresh := Bool.eq_false_iff.mpr hstarted
    refine ⟨_, reaches_step (step_begin hserving hfresh), rfl, ?_⟩
    simp [load, hfresh]

/-- A worker comes to rest while time stands still and nothing arrives. -/
theorem exists_rest (able : Able c) :
    ∃ c', Reaches c c' [] ∧ c'.isResting = true ∧ c'.now = c.now := by
  -- by induction on the turns that it needs at most
  induction hload : c.load using Nat.strongRecOn generalizing c with
  | ind load ih =>
    cases hbusy : c.isResting with
    | true => exact ⟨c, .refl c, hbusy, rfl⟩
    | false =>
      obtain ⟨c', hreach, hnow, hless⟩ := exists_turn able hbusy
      obtain ⟨c'', hreach', hrest, hnow'⟩ := ih c'.load (hload ▸ hless) (able.reaches hreach) rfl
      exact ⟨c'', hreach.trans hreach', hrest, hnow'.trans hnow⟩

/-! ## Any times -/

/-- A worker that rests comes to rest at any later time. -/
theorem exists_later (able : Able c) (hrest : c.isResting = true) {later : Nat}
    (hlater : c.now ≤ later) :
    ∃ c', Reaches c c' [] ∧ c'.isResting = true ∧ c'.now = later := by
  -- one unit of time after the other: no hook can be due in between
  induction hwait : later - c.now generalizing c with
  | zero => exact ⟨c, .refl c, hrest, by omega⟩
  | succ wait ih =>
    have hdues : c.service.worker.running.all (c.now + 1 ≤ ·.due) = true := by
      simp only [isResting, Bool.and_eq_true] at hrest
      exact hrest.2
    have hstep : c.step (.pass (c.now + 1)) = (⟨c.service, c.now + 1⟩, [], []) := by
      simp only [step]
      exact if_pos ⟨hrest, Nat.le_succ _, hdues⟩
    have hpass := reaches_step hstep
    obtain ⟨c', hreach, hrest', hnow⟩ := exists_rest (able.reaches hpass)
    change c'.now = c.now + 1 at hnow
    obtain ⟨c'', hreach', hrest'', hnow'⟩ :=
      ih ((able.reaches hpass).reaches hreach) hrest' (by omega) (by omega)
    exact ⟨c'', hpass.trans (hreach.trans hreach'), hrest'', hnow'⟩

/-- A message can arrive at any time from now on. -/
theorem exists_arrival (able : Able c) (hrest : c.isResting = true) {time : Nat}
    (htime : c.now ≤ time) (m : HostMessage) :
    ∃ c', Reaches c c' [(time, m)] ∧ c'.isResting = true ∧ c'.now = time := by
  obtain ⟨c', hreach, hrest', hnow⟩ := exists_later able hrest htime
  have able' := able.reaches hreach
  have hroom : c'.service.link.prompts.hasRoom = true := by
    simp only [isResting, Bool.and_eq_true, List.isEmpty_iff] at hrest'
    simpa [Channel.hasRoom, hrest'.1.1.2] using able'.promptRoom
  have hdeliver := reaches_step (step_deliver able'.serving hroom m)
  obtain ⟨c'', hreach', hrest'', hnow'⟩ := exists_rest (able'.reaches hdeliver)
  refine ⟨c'', ?_, hrest'', hnow'.trans hnow⟩
  rw [← hnow]
  exact hreach.trans (hdeliver.trans hreach')

/-- Messages can arrive at any times from now on, one after the other. -/
theorem exists_arrivals (able : Able c) (hrest : c.isResting = true)
    {arrivals : List (Nat × HostMessage)} (hsorted : arrivals.Pairwise fun a b => a.1 ≤ b.1)
    {horizon : Nat} (hfirst : ∀ a ∈ arrivals, c.now ≤ a.1) (hlast : ∀ a ∈ arrivals, a.1 ≤ horizon)
    (hnow : c.now ≤ horizon) :
    ∃ c', Reaches c c' arrivals ∧ c'.isResting = true ∧ c'.now = horizon := by
  induction arrivals generalizing c with
  | nil => exact exists_later able hrest hnow
  | cons a rest ih =>
    obtain ⟨hbefore, hsorted'⟩ := List.pairwise_cons.mp hsorted
    obtain ⟨c', hreach, hrest', hnow'⟩ :=
      exists_arrival able hrest (hfirst a List.mem_cons_self) a.2
    obtain ⟨c'', hreach', hrest'', hnow''⟩ := ih (able.reaches hreach) hrest' hsorted'
      (fun b hb => hnow' ▸ hbefore b hb) (fun b hb => hlast b (List.mem_cons_of_mem a hb))
      (hnow' ▸ hlast a List.mem_cons_self)
    exact ⟨c'', hreach.trans hreach', hrest'', hnow''⟩

/-- **Messages can arrive at any times**: however a run has gone, it can go on with any messages at
any times from then on, and be brought to rest. -/
theorem exists_run (factory : Factory Hook) {promptRoom replyRoom : Nat}
    (hpromptRoom : 0 < promptRoom) (hreplyRoom : 0 < replyRoom) (ticks : List Tick)
    {arrivals : List (Nat × HostMessage)} (hsorted : arrivals.Pairwise fun a b => a.1 ≤ b.1)
    {horizon : Nat} (hnow : ((fresh factory promptRoom replyRoom).run ticks).1.now ≤ horizon)
    (hfirst : ∀ a ∈ arrivals, ((fresh factory promptRoom replyRoom).run ticks).1.now ≤ a.1)
    (hlast : ∀ a ∈ arrivals, a.1 ≤ horizon) :
    ∃ c', Reaches ((fresh factory promptRoom replyRoom).run ticks).1 c' arrivals ∧
      c'.isResting = true ∧ c'.now = horizon := by
  have able : Able (fresh factory promptRoom replyRoom) :=
    ⟨⟨rfl, rfl, rfl, rfl⟩, hpromptRoom, hreplyRoom⟩
  obtain ⟨c', hreach, hrest, hsame⟩ := exists_rest (able.run ticks)
  obtain ⟨c'', hreach', hrest', hnow'⟩ := exists_arrivals ((able.run ticks).reaches hreach) hrest
    hsorted (hsame ▸ hfirst) hlast (hsame ▸ hnow)
  exact ⟨c'', hreach.trans hreach', hrest', hnow'⟩

end Invigilation.Clocked
