import Invigilation.Proofs.Page.Isolation

/-!
# The unload warning and the calls of a page

Whether the unload warning is registered is decided by the last that was done to the gate. A call
that submits does one thing to it, which comes before its report, so between that and the reload
whoever else uses the gate can have the warning registered again.

- `Gate.Writing`, `Gate.write`: what is done to the registration of the warning.
- `Gate.beforeUnload_writings`: the last writing decides what the page shows.
- `Page.writings`, `Page.gate_run`: what is done to the gate in a run of a page.
- `Page.warning_at_reload`: **what the page shows when a submission reloads it** depends on what was
  done to the gate since the submission took the warning off.
-/

namespace Invigilation

namespace Gate

/-! ## Writings -/

/-- What can be done to the registration of the warning. -/
inductive Writing where
  | evaluated (s : PageState)
  | detached

/-- Whether the warning is registered afterwards. -/
def Writing.attaches : Writing → Bool
  | .evaluated s => s.warrantsWarning
  | .detached => false

@[simp]
theorem attaches_evaluated (s : PageState) :
    (Writing.evaluated s).attaches = s.warrantsWarning := rfl

/-- The effect of a writing. -/
def write (g : Gate) : Writing → Gate
  | .evaluated s => g.evaluate s
  | .detached => g.detach

theorem evaluate_eq (g : Gate) (s : PageState) :
    g.evaluate s = if s.warrantsWarning then g.attach else g.detach := by
  unfold evaluate assess
  split <;> rfl

/-- Nothing is registered but the warning of the gate. -/
def Faithful (g : Gate) : Prop :=
  ∀ text, g.registered = some text → text = g.message

variable {g : Gate}

theorem faithful_detach (g : Gate) : g.detach.Faithful :=
  fun _ h => nomatch h

/-- After a writing the warning is registered, or nothing is. -/
theorem Faithful.write_cases (h : g.Faithful) (w : Writing) :
    g.write w = ⟨g.message, if w.attaches then some g.message else none⟩ := by
  cases w with
  | detached => rfl
  | evaluated s =>
    by_cases hattaches : (Writing.evaluated s).attaches = true
    · rw [if_pos hattaches, write, evaluate_eq, if_pos (attaches_evaluated s ▸ hattaches), attach]
      split
      · rfl
      · next text hregistered =>
        rw [h text hregistered] at hregistered
        rw [← hregistered]
    · rw [if_neg hattaches, write, evaluate_eq, if_neg (attaches_evaluated s ▸ hattaches)]
      rfl

theorem Faithful.write (h : g.Faithful) (w : Writing) : (g.write w).Faithful := by
  rw [h.write_cases w]
  intro text htext
  by_cases hattaches : w.attaches = true
  · rw [if_pos hattaches] at htext
    exact (Option.some.inj htext).symm
  · rw [if_neg hattaches] at htext
    cases htext

/-- **The last writing decides what the page shows**; without any, that stays as it was. -/
theorem Faithful.writings (h : g.Faithful) (writings : List Writing) :
    (writings.foldl Gate.write g).message = g.message ∧
      (writings.foldl Gate.write g).beforeUnload =
        match writings.getLast? with
        | none => g.beforeUnload
        | some w => if w.attaches then some g.message else none := by
  induction writings generalizing g with
  | nil => exact ⟨rfl, rfl⟩
  | cons w rest ih =>
    obtain ⟨hmessage, hshown⟩ := ih (h.write w)
    have hwritten := h.write_cases w
    rw [List.foldl_cons, hmessage, hshown, hwritten, List.getLast?_cons]
    refine ⟨rfl, ?_⟩
    cases rest.getLast? <;> rfl

end Gate

namespace Call

/-- The only thing that a call does to the gate is that it takes the warning off. -/
theorem gate_step (call : Call) (gate : Gate) (m : Move) :
    (.detached ∈ (call.step gate m).2.2 ∧ (call.step gate m).2.2 = [.detached] ∧
        (call.step gate m).2.1 = gate.detach) ∨
      (.detached ∉ (call.step gate m).2.2 ∧ (call.step gate m).2.1 = gate) := by
  obtain ⟨coordinator, task, phase⟩ := call
  cases phase with
  | «over» result => cases m <;> exact .inr ⟨by simp [step, stepPhase], rfl⟩
  | working stages =>
    cases stages with
    | nil => cases m <;> exact .inr ⟨by simp [step, stepPhase], rfl⟩
    | cons stage rest =>
      cases m with
      | session | reply | abandon => exact .inr ⟨by simp [step, stepPhase], rfl⟩
      | proceed =>
        cases stage with
        | detach => exact .inl ⟨List.mem_cons_self, rfl, rfl⟩
        | session => exact .inr ⟨by simp [step, stepPhase, begin], rfl⟩
        | reload => exact .inr ⟨by simp [step, stepPhase, begin], rfl⟩
        | update a url =>
          simp only [step, stepPhase, begin]
          cases coordinator.client.updateRequest url a with
          | ok request => exact .inr ⟨by simp, rfl⟩
          | error e => exact .inr ⟨by simp, rfl⟩
  | inSession s rest =>
    cases m with
    | proceed | reply => exact .inr ⟨by simp [step, stepPhase], rfl⟩
    | session m | abandon now => exact .inr ⟨by simp [step, stepPhase], rfl⟩
  | inRequest a url rest =>
    cases m with
    | proceed | session | abandon => exact .inr ⟨by simp [step, stepPhase], rfl⟩
    | reply reply =>
      simp only [step, stepPhase]
      cases Client.concludeUpdate url reply with
      | ok => exact .inr ⟨by simp, rfl⟩
      | error e => exact .inr ⟨by simp, rfl⟩

end Call

namespace Page

open Gate (Writing)

variable {p : Page} {place : Nat}

/-! ## What is done to the gate of a page -/

/-- What a move with these events does to the gate. -/
def Move.writings (events : List (Nat × Call.Event)) : Move → List Writing
  | .evaluate s => [.evaluated s]
  | .detach => [.detached]
  | .begin _ _ => []
  | .call _ _ => if events.any (·.2 = .detached) then [.detached] else []

/-- What is done to the gate in a run. -/
def writings (p : Page) : List Move → List Writing
  | [] => []
  | m :: rest => m.writings (p.step m).2 ++ (p.step m).1.writings rest

theorem gate_step (p : Page) (m : Move) :
    (p.step m).1.gate = (m.writings (p.step m).2).foldl Gate.write p.gate := by
  cases m with
  | evaluate | detach | begin => rfl
  | call place cm =>
    cases hcall : p.calls[place]? with
    | none =>
      rw [step_call_none hcall]
      rfl
    | some c =>
      rw [step_call hcall]
      simp only [Move.writings, List.any_map, Function.comp_def]
      obtain ⟨-, hseen, hgate⟩ | ⟨hnone, hgate⟩ := c.gate_step p.gate cm
      · rw [hseen, hgate]
        rfl
      · rw [hgate, if_neg (by simpa using hnone)]
        rfl

/-- Nothing else is done to the gate of a page. -/
theorem gate_run (p : Page) (moves : List Move) :
    (p.run moves).1.gate = (p.writings moves).foldl Gate.write p.gate := by
  induction moves generalizing p with
  | nil => rfl
  | cons m rest ih =>
    show ((p.step m).1.run rest).1.gate =
      (m.writings (p.step m).2 ++ (p.step m).1.writings rest).foldl Gate.write p.gate
    rw [List.foldl_append, ← gate_step, ih]

/-- What was seen in a run was seen of one of its moves. -/
theorem exists_move_of_mem {moves : List Move} {e : Nat × Call.Event} (h : e ∈ (p.run moves).2) :
    ∃ earlier m later, moves = earlier ++ m :: later ∧ e ∈ ((p.run earlier).1.step m).2 := by
  induction moves generalizing p with
  | nil => cases h
  | cons m rest ih =>
    rw [run_cons] at h
    rcases List.mem_append.mp h with hnow | hlater
    · exact ⟨[], m, rest, rfl, hnow⟩
    · obtain ⟨earlier, m', later, rfl, hseen⟩ := ih hlater
      exact ⟨m :: earlier, m', later, rfl, hseen⟩

/-- A call that takes the warning off leaves none. -/
theorem gate_of_detached {m : Move} (h : (place, .detached) ∈ (p.step m).2) :
    (p.step m).1.gate = p.gate.detach := by
  cases m with
  | evaluate | detach | begin => cases h
  | call other cm =>
    rw [gate_step]
    have hwritings : (Move.call other cm).writings (p.step (.call other cm)).2 = [.detached] :=
      if_pos (List.any_eq_true.mpr ⟨_, h, by simp⟩)
    rw [hwritings]
    rfl

/-- A call that reloads the page leaves the gate as it is. -/
theorem gate_of_reloaded {m : Move} (h : (place, .reloaded) ∈ (p.step m).2) :
    (p.step m).1.gate = p.gate := by
  cases m with
  | evaluate | detach | begin => cases h
  | call other cm =>
    cases hcall : p.calls[other]? with
    | none =>
      rw [step_call_none hcall] at h
      cases h
    | some c =>
      rw [step_call hcall] at h ⊢
      obtain ⟨e, hmem, heq⟩ := List.mem_map.mp h
      cases heq
      obtain ⟨-, hseen, -⟩ | ⟨-, hgate⟩ := c.gate_step p.gate cm
      · rw [hseen] at hmem
        cases List.mem_singleton.mp hmem
      · exact hgate

/-- What a page shows to a user who is about to leave, when a submission took the warning off and
these moves were made since. -/
def shownSince (p : Page) (moves : List Move) : Option String :=
  if (p.writings moves).getLast?.any Writing.attaches then some p.gate.message else none

/-- **What the page shows when a submission reloads it** is decided by what was done to the gate
last since the submission took the warning off: the warning, if a page was evaluated that warrants
it, and else nothing. -/
theorem warning_at_reload (gate : Gate) (moves : List Move) (place : Nat) (m : Move)
    (c : Coordinator) (url : String) (phase : Call.Phase)
    (hcall : ((fresh gate).run moves).1.calls[place]? = some ⟨c, .act .submit url, phase⟩)
    (hreload : (place, .reloaded) ∈ (((fresh gate).run moves).1.step m).2) :
    ∃ earlier d later, moves = earlier ++ d :: later ∧
      (place, .detached) ∈ (((fresh gate).run earlier).1.step d).2 ∧
      (((fresh gate).run moves).1.step m).1.gate.beforeUnload =
        (((fresh gate).run earlier).1.step d).1.shownSince later := by
  have hunderway := underway_run gate moves
  obtain ⟨c', a, url', phase', hcall', ⟨request, attached, heq⟩, -⟩ := hunderway.reload hreload
  rw [hcall] at hcall'
  cases hcall'
  -- the submission has begun with the detachment
  have hmem : .detached ∈ seen place ((fresh gate).run moves).2 := by
    have hfirst : .detached ∈ seen place ((fresh gate).run moves).2 ++ [.reloaded] := by
      rw [heq]
      exact List.mem_cons_self
    rcases List.mem_append.mp hfirst with hseen | hlast
    · exact hseen
    · cases List.mem_singleton.mp hlast
  obtain ⟨earlier, d, later, rfl, hdetached⟩ := exists_move_of_mem (mem_seen.mp hmem)
  refine ⟨earlier, d, later, rfl, hdetached, ?_⟩
  rw [gate_of_reloaded hreload, run_append, run_cons]
  -- from then on the gate is what was written to it
  generalize hq : (((fresh gate).run earlier).1.step d).1 = q
  have hgate : q.gate = ((fresh gate).run earlier).1.gate.detach := by
    rw [← hq]
    exact gate_of_detached hdetached
  have hfaithful : q.gate.Faithful := by
    rw [hgate]
    exact Gate.faithful_detach _
  have hnothing : q.gate.beforeUnload = none := by
    rw [hgate]
    rfl
  show (q.run later).1.gate.beforeUnload = q.shownSince later
  rw [gate_run, (hfaithful.writings _).2, hnothing]
  unfold shownSince
  cases (q.writings later).getLast? <;> rfl

/-- A coordinator without a worker. -/
def workerless : Coordinator := { client := ⟨none, minTimeout, none⟩ }

/-- What happens to a submission: while its report has no answer yet, the page is evaluated, with a
minute left. -/
def lateEvaluation : List Move :=
  [.call 0 .proceed, .call 0 .proceed, .evaluate ⟨true, 60, true⟩,
    .call 0 (.reply (.answer 200 []))]

/-- The submission reloads the page next, under the warning. -/
theorem lateEvaluation_reload :
    let moves := .begin workerless (.act .submit "http://lms/attempt/7") :: lateEvaluation
    ((fresh ⟨"Stay here.", none⟩).run moves).1.calls[0]? =
      some ⟨workerless, .act .submit "http://lms/attempt/7", .working [.reload]⟩ ∧
    (0, .reloaded) ∈ (((fresh ⟨"Stay here.", none⟩).run moves).1.step (.call 0 .proceed)).2 ∧
    (((fresh ⟨"Stay here.", none⟩).run moves).1.step (.call 0 .proceed)).1.gate.beforeUnload =
      some "Stay here." := by
  decide +kernel

/-- What the page shows at that reload is what was evaluated since the detachment. -/
theorem warning_at_reload_late :
    let moves := .begin workerless (.act .submit "http://lms/attempt/7") :: lateEvaluation
    ∃ earlier d later, moves = earlier ++ d :: later ∧
      (0, .detached) ∈ (((fresh ⟨"Stay here.", none⟩).run earlier).1.step d).2 ∧
      (((fresh ⟨"Stay here.", none⟩).run moves).1.step (.call 0 .proceed)).1.gate.beforeUnload =
        (((fresh ⟨"Stay here.", none⟩).run earlier).1.step d).1.shownSince later := by
  obtain ⟨hcall, hreload, -⟩ := lateEvaluation_reload
  exact warning_at_reload ⟨"Stay here.", none⟩ _ 0 (.call 0 .proceed) workerless
    "http://lms/attempt/7" (.working [.reload]) hcall hreload

/-- A submission that shares the gate with others can reload the page under the warning. -/
theorem not_quiet_at_reload :
    ¬ ∀ (gate : Gate) (c : Coordinator) (url : String) (moves : List Move) (m : Move),
      (∀ m' ∈ moves, (∃ s, m' = .evaluate s) ∨ ∃ cm, m' = .call 0 cm) →
      (0, .reloaded) ∈
        (((fresh gate).run (.begin c (.act .submit url) :: moves)).1.step m).2 →
      (((fresh gate).run (.begin c (.act .submit url) :: moves)).1.step m).1.gate.beforeUnload =
        none := by
  intro hquiet
  have hothers : ∀ m ∈ lateEvaluation, (∃ s, m = .evaluate s) ∨ ∃ cm, m = .call 0 cm := by
    simp [lateEvaluation]
  obtain ⟨-, hreload, hwarning⟩ := lateEvaluation_reload
  have hnone := hquiet ⟨"Stay here.", none⟩ workerless "http://lms/attempt/7" lateEvaluation
    (.call 0 .proceed) hothers hreload
  rw [hwarning] at hnone
  cases hnone

end Page

end Invigilation
