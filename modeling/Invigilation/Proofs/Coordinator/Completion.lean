import Invigilation.Coordinator.Call
import Invigilation.Proofs.Session.Wait

/-!
# Calls that come to their end

Nothing in a plan stands in its own way: if the server and the worker do their part, every stage is
left behind, one after the other.

- `Call.Reaches`: the phases that a call can come to.
- `Call.reaches_success`: **a call can come to the end of its plan**, if each of its reports can be
  put together and each of its sessions has a prompt with the response paired with it.
-/

namespace Invigilation

/-- What a stage needs, so that it can succeed. -/
def Coordinator.Stage.Feasible (c : Coordinator) : Stage → Prop
  | .session r _ => ∃ p : Prompt, r.exchange = p.exchange
  | .update a url => ∃ request, c.client.updateRequest url a = .ok request
  | .detach | .reload => True

namespace Call

open Coordinator (Stage Task)

/-! ## Runs -/

theorem run_cons (c : Call) (gate : Gate) (m : Move) (moves : List Move) :
    c.run gate (m :: moves) =
      (((c.step gate m).1.run (c.step gate m).2.1 moves).1,
        ((c.step gate m).1.run (c.step gate m).2.1 moves).2.1,
        (c.step gate m).2.2 ++ ((c.step gate m).1.run (c.step gate m).2.1 moves).2.2) := rfl

/-- A run changes nothing of a call but its phase. -/
theorem run_fst (c : Call) (gate : Gate) (moves : List Move) :
    (c.run gate moves).1 = { c with phase := (c.run gate moves).1.phase } := by
  induction moves generalizing c gate with
  | nil => rfl
  | cons m rest ih =>
    rw [run_cons]
    exact ih (c.step gate m).1 (c.step gate m).2.1

theorem run_append (c : Call) (gate : Gate) (moves later : List Move) :
    (c.run gate (moves ++ later)).1 =
      ((c.run gate moves).1.run (c.run gate moves).2.1 later).1 := by
  induction moves generalizing c gate with
  | nil => rfl
  | cons m rest ih =>
    rw [List.cons_append, run_cons, run_cons]
    exact ih (c.step gate m).1 (c.step gate m).2.1

/-- The phases that a call can come to, whatever the gate is. -/
def Reaches (c : Coordinator) (t : Task) (phase phase' : Phase) : Prop :=
  ∀ gate, ∃ moves, (run ⟨c, t, phase⟩ gate moves).1.phase = phase'

variable {c : Coordinator} {t : Task} {phase phase' phase'' : Phase}

theorem reaches_refl : Reaches c t phase phase := fun _ => ⟨[], rfl⟩

theorem Reaches.trans (h : Reaches c t phase phase') (h' : Reaches c t phase' phase'') :
    Reaches c t phase phase'' := by
  intro gate
  obtain ⟨moves, hmoves⟩ := h gate
  obtain ⟨later, hlater⟩ := h' ((run ⟨c, t, phase⟩ gate moves).2.1)
  refine ⟨moves ++ later, ?_⟩
  rw [run_append, run_fst ⟨c, t, phase⟩, hmoves]
  exact hlater

theorem reaches_step (m : Move)
    (h : ∀ gate, (stepPhase ⟨c, t, phase⟩ gate phase m).1 = phase') :
    Reaches c t phase phase' := fun gate => ⟨[m], h gate⟩

/-! ## Stages -/

/-- Moves of a session mean nothing to a call that is not in one. -/
theorem run_session_of_continuing (stages : List Stage) (gate : Gate)
    (moves : List Session.Move) :
    (run ⟨c, t, continuing c t stages⟩ gate (moves.map .session)).1.phase =
      continuing c t stages := by
  induction moves generalizing gate with
  | nil => rfl
  | cons m rest ih =>
    have hstep : (step ⟨c, t, continuing c t stages⟩ gate (.session m)).1 =
        ⟨c, t, continuing c t stages⟩ := by
      cases stages <;> rfl
    rw [List.map_cons, run_cons, hstep]
    exact ih _

/-- A session that is answered lets its call go on. -/
theorem run_session {s : Session} {moves : List Session.Move} {rest : List Stage} {time : Nat}
    (still : s.result? = none) (h : (s.run moves).1.result? = some (time, .answered))
    (gate : Gate) :
    (run ⟨c, t, .inSession s rest⟩ gate (moves.map .session)).1.phase =
      continuing c t rest := by
  induction moves generalizing s gate with
  | nil =>
    rw [show (s.run []).1 = s from rfl, still] at h
    cases h
  | cons m later ih =>
    rw [Session.run_cons] at h
    rw [List.map_cons, run_cons]
    cases hresult : (s.step m).1.result? with
    | none =>
      have hstep : (step ⟨c, t, .inSession s rest⟩ gate (.session m)).1 =
          ⟨c, t, .inSession (s.step m).1 rest⟩ := by
        show (⟨c, t, afterSession _ (s.step m).1 rest⟩ : Call) = _
        simp only [afterSession, hresult]
      rw [hstep]
      exact ih hresult h _
    | some result =>
      -- the session is over, and with the result that it has at the end
      have hsame := Session.result?_run hresult later
      rw [hsame] at h
      cases h
      have hstep : (step ⟨c, t, .inSession s rest⟩ gate (.session m)).1 =
          ⟨c, t, continuing c t rest⟩ := by
        show (⟨c, t, afterSession _ (s.step m).1 rest⟩ : Call) = _
        simp only [afterSession, hresult]
      rw [hstep]
      exact run_session_of_continuing rest _ later

/-- A stage that can succeed can be left behind. -/
theorem reaches_next {stage : Stage} (h : Stage.Feasible c stage) (rest : List Stage) :
    Reaches c t (.working (stage :: rest)) (continuing c t rest) := by
  cases stage with
  | detach => exact reaches_step .proceed fun _ => rfl
  | reload => exact reaches_step .proceed fun _ => rfl
  | session r entryPoint =>
    obtain ⟨p, hexchange⟩ := h
    have hbegin : Reaches c t (.working (.session r entryPoint :: rest))
        (.inSession ⟨r, entryPoint, .unopened⟩ rest) := reaches_step .proceed fun _ => rfl
    obtain ⟨moves, hmoves⟩ := Session.exists_answered hexchange entryPoint
    exact hbegin.trans fun gate => ⟨moves.map .session, run_session rfl hmoves gate⟩
  | update a url =>
    obtain ⟨request, hrequest⟩ := h
    have hbegin : Reaches c t (.working (.update a url :: rest))
        (.inRequest a request.url rest) := by
      refine reaches_step .proceed fun gate => ?_
      simp only [stepPhase, begin, hrequest]
    exact hbegin.trans (reaches_step (.reply (.answer 200 [])) fun _ => rfl)

/-- **A call can come to the end of its plan.** -/
theorem reaches_success {stages : List Stage}
    (h : ∀ stage ∈ stages, Stage.Feasible c stage) :
    Reaches c t (continuing c t stages) (.over (success c t)) := by
  induction stages with
  | nil => exact reaches_refl
  | cons stage rest ih =>
    have hstage := h stage List.mem_cons_self
    have hrest := ih fun stage hmem => h stage (List.mem_cons_of_mem _ hmem)
    exact (reaches_next hstage rest).trans hrest

end Call

end Invigilation
