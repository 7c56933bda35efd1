import Mathlib.Data.List.Perm.Basic
import Invigilation.Proofs.Worker.Clocked

/-!
# Punctual answers

When a prompt is received, the end of its hook is fixed, and so is the time of its answer. A worker
that never lags behind answers at that time.

- `Clocked.dues`: the responses that arriving messages make due.
- `Clocked.Punctual`: what is due, what was answered, and when; **every tick keeps it**.
- `Clocked.Punctual.answered_before`, `Clocked.Punctual.answered_perm`: what was due by the time was
  answered, and nothing else.
-/

namespace Invigilation.Clocked

variable {c : Clocked} {factory : Factory Hook}

/-! ## What is due, and when -/

/-- What a message makes due when it arrives at a time after others: the response to its prompt, at
the end of the hook that the handler in force then runs for it. -/
def due (factory : Factory Hook) (before : List HostMessage) (time : Nat) :
    HostMessage → List (Nat × WorkerMessage)
  | .prompt p =>
    match factory (Worker.optionsAfter before) p with
    | some hook => if hook.succeeds then [(time + hook.delay, .response p)] else []
    | none => []
  | .config _ | .unknown => []

/-- What messages make due that arrive after others. -/
def duesAfter (factory : Factory Hook) (before : List HostMessage) :
    List (Nat × HostMessage) → List (Nat × WorkerMessage)
  | [] => []
  | (time, m) :: rest => due factory before time m ++ duesAfter factory (before ++ [m]) rest

/-- What arriving messages make due. -/
def dues (factory : Factory Hook) (arrived : List (Nat × HostMessage)) :
    List (Nat × WorkerMessage) :=
  duesAfter factory [] arrived

/-- The response that a hook that runs will bring, and when. -/
def pledge (task : Worker.Task Hook) : List (Nat × WorkerMessage) :=
  if task.hook.succeeds then [(task.due, .response task.prompt)] else []

theorem duesAfter_append (factory : Factory Hook) (before : List HostMessage)
    (arrived later : List (Nat × HostMessage)) :
    duesAfter factory before (arrived ++ later) = duesAfter factory before arrived ++
      duesAfter factory (before ++ arrived.map (·.2)) later := by
  induction arrived generalizing before with
  | nil => simp [duesAfter]
  | cons a rest ih =>
    obtain ⟨time, m⟩ := a
    show due factory before time m ++ duesAfter factory (before ++ [m]) (rest ++ later) =
      _ ++ _ ++ _
    rw [ih, List.append_assoc, List.map_cons, List.append_assoc]
    rfl

theorem dues_snoc (factory : Factory Hook) (arrived : List (Nat × HostMessage)) (time : Nat)
    (m : HostMessage) :
    dues factory (arrived ++ [(time, m)]) =
      dues factory arrived ++ due factory (arrived.map (·.2)) time m := by
  unfold dues
  rw [duesAfter_append]
  show _ ++ (due factory ([] ++ arrived.map (·.2)) time m ++ []) = _
  rw [List.nil_append, List.append_nil]

/-- Messages that arrive later do not change what is due already. -/
theorem dues_mono (factory : Factory Hook) (arrived later : List (Nat × HostMessage)) :
    dues factory arrived <+: dues factory (arrived ++ later) := by
  unfold dues
  rw [duesAfter_append]
  exact List.prefix_append _ _

/-- Nothing is due before the message arrives that makes it due. -/
theorem le_of_mem_duesAfter {factory : Factory Hook} {before : List HostMessage} {now : Nat}
    {arrived : List (Nat × HostMessage)} (harrived : ∀ a ∈ arrived, now ≤ a.1)
    {b : Nat × WorkerMessage} (hb : b ∈ duesAfter factory before arrived) : now ≤ b.1 := by
  induction arrived generalizing before with
  | nil => cases hb
  | cons a rest ih =>
    obtain ⟨time, m⟩ := a
    rcases List.mem_append.mp hb with hhere | hrest
    · refine Nat.le_trans (harrived _ List.mem_cons_self) ?_
      cases m with
      | config | unknown => cases hhere
      | prompt p =>
        simp only [due] at hhere
        split at hhere
        · split at hhere
          · rw [List.mem_singleton.mp hhere]
            exact Nat.le_add_right _ _
          · cases hhere
        · cases hhere
    · exact ih (fun a ha => harrived a (List.mem_cons_of_mem _ ha)) hrest

theorem mem_pledge {task : Worker.Task Hook} {a : Nat × WorkerMessage} (h : a ∈ pledge task) :
    a.1 = task.due := by
  unfold pledge at h
  split at h
  · rw [List.mem_singleton.mp h]
  · cases h

/-- What is kept of a worker with a clock, when some messages have arrived, some of them were
received, and some responses were posted:
1. the messages that were not received have arrived just now;
2. the handler in force is that of the messages received;
3. what they make due was answered, is ready to be answered now, or is pledged by a hook that runs;
4. no hook is overdue;
5. the answers are in the order of their times. -/
structure Punctual (factory : Factory Hook) (c : Clocked)
    (received arrived : List (Nat × HostMessage)) (answered : List (Nat × WorkerMessage)) :
    Prop where
  serving : Serving c.service
  factory_eq : c.service.worker.factory = factory
  options : c.service.worker.options = Worker.optionsAfter (received.map (·.2))
  arrivals : arrived = received ++ c.service.link.prompts.queue.map (c.now, ·)
  balance : (answered ++ c.service.worker.ready.map (fun p => (c.now, WorkerMessage.response p)) ++
    c.service.worker.running.flatMap pledge).Perm (dues factory received)
  undue : ∀ task ∈ c.service.worker.running, c.now ≤ task.due
  past : ∀ a ∈ answered, a.1 ≤ c.now
  ordered : answered.Pairwise fun a b => a.1 ≤ b.1

theorem punctual_fresh (factory : Factory Hook) (promptRoom replyRoom : Nat) :
    Punctual factory (fresh factory promptRoom replyRoom) [] [] [] where
  serving := ⟨rfl, rfl, rfl, rfl⟩
  factory_eq := rfl
  options := rfl
  arrivals := rfl
  balance := .nil
  undue := by simp [fresh, Service.fresh]
  past := by simp
  ordered := .nil

variable {received arrived : List (Nat × HostMessage)} {answered : List (Nat × WorkerMessage)}

/-- A message that is received makes due what the hook that it starts pledges. -/
theorem pledge_receive {w : Worker Hook} {before : List HostMessage}
    (hoptions : w.options = Worker.optionsAfter before) (now : Nat) (m : HostMessage) :
    (w.receive now m).1.running.flatMap pledge =
      w.running.flatMap pledge ++ due w.factory before now m := by
  cases m with
  | config | unknown => exact (List.append_nil _).symm
  | prompt p =>
    show (w.running ++ _).flatMap pledge = _ ++ due w.factory before now (.prompt p)
    rw [List.flatMap_append, hoptions]
    simp only [due]
    cases w.factory (Worker.optionsAfter before) p with
    | none => rfl
    | some hook =>
      show _ ++ (pledge ⟨p, hook, now⟩ ++ []) = _
      rw [List.append_nil]
      rfl

/-- A hook that completes in time leaves what it has pledged. -/
theorem pledge_complete {w : Worker Hook} {place now : Nat} {task : Worker.Task Hook}
    (htask : w.running[place]? = some task) (hnow : task.due = now) :
    ((w.complete place task.hook.succeeds).1.ready.map (fun p => (now, WorkerMessage.response p)) ++
      (w.complete place task.hook.succeeds).1.running.flatMap pledge).Perm
    (w.ready.map (fun p => (now, WorkerMessage.response p)) ++ w.running.flatMap pledge) := by
  obtain ⟨hplace, hget⟩ := List.getElem?_eq_some_iff.mp htask
  have hperm := (List.getElem_cons_eraseIdx_perm hplace).flatMap_right pledge
  rw [hget, List.flatMap_cons] at hperm
  refine List.Perm.trans ?_ (hperm.append_left _)
  unfold Worker.complete pledge
  rw [htask]
  dsimp only
  cases hsucceeds : task.hook.succeeds with
  | false => exact List.Perm.refl _
  | true =>
    simp only [if_true, List.map_append, List.map_cons, List.map_nil, hnow, List.append_assoc]
    exact List.Perm.refl _

/-- A message that is received is no longer queued, and its hook is pledged. -/
theorem Punctual.receive {prompts : Channel HostMessage} {replies : Channel WorkerMessage}
    {w : Worker Hook} {now : Nat} {m : HostMessage} {rest : List HostMessage}
    (h : Punctual factory ⟨⟨⟨prompts, replies⟩, w⟩, now⟩ received arrived answered)
    (hqueue : prompts.queue = m :: rest) :
    Punctual factory
      ⟨⟨⟨{ prompts with queue := rest }, replies⟩, (w.receive now m).1⟩, now⟩
      (received ++ [(now, m)]) arrived answered := by
  have hserving := (Happens.receive now prompts replies w m rest hqueue).serving h.serving
  obtain ⟨-, hfactory, options, arrivals, balance, undue, past, ordered⟩ := h
  dsimp only at hfactory options arrivals balance undue
  refine ⟨hserving, ?_, ?_, ?_, ?_, ?_, past, ordered⟩
  · cases m <;> exact hfactory
  · rw [List.map_append, List.map_cons, List.map_nil, Worker.optionsAfter_snoc, ← options]
    cases m <;> rfl
  · rw [arrivals, hqueue, List.append_assoc]
    rfl
  · have hready : (w.receive now m).1.ready = w.ready := by cases m <;> rfl
    dsimp only
    rw [hready, pledge_receive options, dues_snoc, hfactory, ← List.append_assoc]
    exact balance.append_right _
  · intro task hmem
    cases m with
    | config | unknown => exact undue task hmem
    | prompt p =>
      rcases List.mem_append.mp hmem with hold | hnew
      · exact undue task hold
      · split at hnew
        · rw [List.mem_singleton.mp hnew]
          exact Nat.le_add_right now _
        · cases hnew

/-- A hook completes when it is due, and its response is ready then. -/
theorem Punctual.complete {l : Link} {w : Worker Hook} {now place : Nat} {task : Worker.Task Hook}
    (h : Punctual factory ⟨⟨l, w⟩, now⟩ received arrived answered)
    (htask : w.running[place]? = some task) (hdue : task.due ≤ now) :
    Punctual factory ⟨⟨l, (w.complete place task.hook.succeeds).1⟩, now⟩ received arrived
      answered := by
  have hserving := (Happens.complete now l w place task htask hdue).serving h.serving
  obtain ⟨-, hfactory, options, arrivals, balance, undue, past, ordered⟩ := h
  have hnow : task.due = now := Nat.le_antisymm hdue (undue task (List.mem_of_getElem? htask))
  have hcalm := Worker.calm_complete w place task.hook.succeeds
  refine ⟨hserving, ?_, hcalm.options.trans options, arrivals, ?_, ?_, past, ordered⟩
  · show (w.complete place task.hook.succeeds).1.factory = factory
    simp only [Worker.complete, htask]
    cases task.hook.succeeds <;> exact hfactory
  · refine List.Perm.trans ?_ balance
    dsimp only
    rw [List.append_assoc, List.append_assoc]
    exact (pledge_complete htask hnow).append_left answered
  · intro task' hmem
    dsimp only at hmem
    rw [running_complete htask] at hmem
    exact undue task' (List.mem_of_mem_eraseIdx hmem)

/-- A response that is posted is answered at the time. -/
theorem Punctual.post {prompts : Channel HostMessage} {replies : Channel WorkerMessage}
    {w : Worker Hook} {now : Nat} {p : Prompt} {rest : List Prompt}
    (h : Punctual factory ⟨⟨⟨prompts, replies⟩, w⟩, now⟩ received arrived answered)
    (hready : w.ready = p :: rest) :
    Punctual factory
      ⟨⟨⟨prompts, { replies with queue := replies.queue ++ [.response p] }⟩,
        { w with ready := rest }⟩, now⟩
      received arrived (answered ++ [(now, .response p)]) := by
  obtain ⟨⟨going, reads, sends, admits⟩, hfactory, options, arrivals, balance, undue, past,
    ordered⟩ := h
  refine ⟨⟨going, reads, sends, admits⟩, hfactory, options, arrivals, ?_, undue, ?_, ?_⟩
  · dsimp only at balance ⊢
    rw [hready, List.map_cons] at balance
    simpa [List.append_assoc] using balance
  · intro a hmem
    rcases List.mem_append.mp hmem with hold | hnew
    · exact past a hold
    · exact Nat.le_of_eq (congrArg Prod.fst (List.mem_singleton.mp hnew))
  · refine List.pairwise_append.mpr ⟨ordered, List.pairwise_singleton _ _, ?_⟩
    intro a ha b hb
    rw [List.mem_singleton.mp hb]
    exact past a ha

/-- When time goes on, nothing is queued and nothing is ready. -/
theorem Punctual.pass {later : Nat} (h : Punctual factory c received arrived answered)
    (hrest : c.isResting = true) (hlater : c.now ≤ later)
    (hdues : ∀ task ∈ c.service.worker.running, later ≤ task.due) :
    Punctual factory ⟨c.service, later⟩ received arrived answered := by
  obtain ⟨hserving, hfactory, options, arrivals, balance, -, past, ordered⟩ := h
  simp only [isResting, Bool.and_eq_true, List.isEmpty_iff] at hrest
  obtain ⟨⟨⟨-, hqueue⟩, hready⟩, -⟩ := hrest
  refine ⟨hserving, hfactory, options, ?_, ?_, hdues, ?_, ordered⟩
  · rw [arrivals, hqueue]
    rfl
  · rw [hready] at balance ⊢
    exact balance
  · intro a ha
    exact Nat.le_trans (past a ha) hlater

/-- **Every tick keeps a worker punctual.** -/
theorem Punctual.happens {c' : Clocked} {arrived' : List (Nat × HostMessage)}
    {answered' : List (Nat × WorkerMessage)} (h : Punctual factory c received arrived answered)
    (effect : Happens c c' arrived' answered') :
    ∃ received', Punctual factory c' received' (arrived ++ arrived') (answered ++ answered') := by
  cases effect with
  | idle =>
    rw [List.append_nil, List.append_nil]
    exact ⟨received, h⟩
  | deliver now prompts replies w m =>
    obtain ⟨⟨going, reads, sends, admits⟩, hfactory, options, arrivals, balance, undue, past,
      ordered⟩ := h
    rw [List.append_nil]
    refine ⟨received, ⟨going, reads, sends, admits⟩, hfactory, options, ?_, balance, undue, past,
      ordered⟩
    rw [arrivals]
    simp
  | collect now prompts replies w =>
    have hserving := (Happens.collect now prompts replies w).serving h.serving
    rw [List.append_nil, List.append_nil]
    exact ⟨received, { h with serving := hserving }⟩
  | begin now l w =>
    obtain ⟨⟨going, reads, sends, admits⟩, hfactory, options, arrivals, balance, undue, past,
      ordered⟩ := h
    rw [List.append_nil, List.append_nil]
    exact ⟨received, ⟨going, reads, sends, admits⟩, hfactory, options, arrivals, balance, undue,
      past, ordered⟩
  | receive now prompts replies w m rest hqueue =>
    rw [List.append_nil, List.append_nil]
    exact ⟨_, h.receive hqueue⟩
  | complete now l w place task htask hdue =>
    rw [List.append_nil, List.append_nil]
    exact ⟨received, h.complete htask hdue⟩
  | post now prompts replies w p rest hready =>
    rw [List.append_nil]
    exact ⟨received, h.post hready⟩
  | pass s now later hrest hlater hdues =>
    rw [List.append_nil, List.append_nil]
    exact ⟨received, h.pass hrest hlater hdues⟩

/-- A run keeps a worker punctual. -/
theorem Punctual.run (h : Punctual factory c received arrived answered) (ticks : List Tick) :
    ∃ received', Punctual factory (c.run ticks).1 received' (arrived ++ (c.run ticks).2.1)
      (answered ++ (c.run ticks).2.2) := by
  induction ticks generalizing c received arrived answered with
  | nil =>
    refine ⟨received, ?_⟩
    show Punctual factory c received (arrived ++ []) (answered ++ [])
    rw [List.append_nil, List.append_nil]
    exact h
  | cons t rest ih =>
    obtain ⟨received', hstep⟩ := h.happens (happens_step h.serving t)
    obtain ⟨received'', hrest⟩ := ih hstep
    refine ⟨received'', ?_⟩
    rw [run_cons, ← List.append_assoc, ← List.append_assoc]
    exact hrest

/-! ## What was answered -/

/-- Nothing is answered that is not due. -/
theorem Punctual.answered_subperm (h : Punctual factory c received arrived answered) :
    answered.Subperm (dues factory arrived) := by
  have hreceived : answered.Subperm (dues factory received) := by
    refine List.Sublist.subperm ?_ |>.trans h.balance.subperm
    rw [List.append_assoc]
    exact List.sublist_append_left _ _
  rw [h.arrivals]
  exact hreceived.trans (dues_mono factory received _).sublist.subperm

/-- At any time, what was due before was answered then, and nothing else was. -/
theorem Punctual.answered_before (h : Punctual factory c received arrived answered) :
    (answered.filter (·.1 < c.now)).Perm ((dues factory arrived).filter (·.1 < c.now)) := by
  have hready : (c.service.worker.ready.map fun p => (c.now, WorkerMessage.response p)).filter
      (·.1 < c.now) = [] := by
    simp [List.filter_eq_nil_iff]
  have hpledged : (c.service.worker.running.flatMap pledge).filter (·.1 < c.now) = [] := by
    refine List.filter_eq_nil_iff.mpr fun a ha => ?_
    obtain ⟨task, htask, hpledge⟩ := List.mem_flatMap.mp ha
    rw [mem_pledge hpledge]
    simpa using h.undue task htask
  have hqueued : (duesAfter factory (received.map (·.2))
      (c.service.link.prompts.queue.map (c.now, ·))).filter (·.1 < c.now) = [] := by
    refine List.filter_eq_nil_iff.mpr fun a ha => ?_
    have hle : c.now ≤ a.1 := le_of_mem_duesAfter (by simp) ha
    simpa using hle
  have hbalance := h.balance.filter (·.1 < c.now)
  rw [List.filter_append, List.filter_append, hready, hpledged, List.append_nil,
    List.append_nil] at hbalance
  rw [h.arrivals]
  unfold dues at hbalance ⊢
  rw [duesAfter_append, List.filter_append, List.nil_append, hqueued, List.append_nil]
  exact hbalance

/-- When a worker rests, what was due by the time was answered, and nothing else. -/
theorem Punctual.answered_perm (h : Punctual factory c received arrived answered)
    (hrest : c.isResting = true) :
    answered.Perm ((dues factory arrived).filter (·.1 ≤ c.now)) := by
  simp only [isResting, Bool.and_eq_true, List.isEmpty_iff, List.all_eq_true,
    decide_eq_true_eq] at hrest
  obtain ⟨⟨⟨-, hqueue⟩, hready⟩, hlater⟩ := hrest
  have harrived : arrived = received := by
    rw [h.arrivals, hqueue]
    exact List.append_nil received
  have hanswered : answered.filter (·.1 ≤ c.now) = answered :=
    List.filter_eq_self.mpr fun a ha => by simpa using h.past a ha
  have hpledged : (c.service.worker.running.flatMap pledge).filter (·.1 ≤ c.now) = [] := by
    refine List.filter_eq_nil_iff.mpr fun a ha => ?_
    obtain ⟨task, htask, hpledge⟩ := List.mem_flatMap.mp ha
    rw [mem_pledge hpledge]
    simpa using hlater task htask
  have hbalance := h.balance.filter (·.1 ≤ c.now)
  rw [hready, List.map_nil, List.append_nil, List.filter_append, hanswered, hpledged,
    List.append_nil] at hbalance
  rw [harrived]
  exact hbalance

/-- Of two answers with different times, the earlier comes first. -/
theorem pair_sublist_of_pairwise {α : Type} {l : List (Nat × α)}
    (h : l.Pairwise fun a b => a.1 ≤ b.1) {a b : Nat × α} (ha : a ∈ l) (hb : b ∈ l)
    (hlt : a.1 < b.1) : [a, b].Sublist l := by
  induction l with
  | nil => cases ha
  | cons x rest ih =>
    obtain ⟨hfirst, hrest⟩ := List.pairwise_cons.mp h
    by_cases hin : a ∈ rest
    · have hb' : b ∈ rest := by
        rcases List.mem_cons.mp hb with hx | hb'
        · exact absurd (hx ▸ hfirst a hin) (Nat.not_le.mpr hlt)
        · exact hb'
      exact (ih hrest hin hb').cons x
    · have hax : a = x := (List.mem_cons.mp ha).resolve_right hin
      have hb' : b ∈ rest := by
        rcases List.mem_cons.mp hb with hx | hb'
        · exact absurd hlt (by rw [hax, hx]; exact Nat.lt_irrefl _)
        · exact hb'
      rw [hax]
      exact (List.singleton_sublist.mpr hb').cons_cons x

end Invigilation.Clocked
