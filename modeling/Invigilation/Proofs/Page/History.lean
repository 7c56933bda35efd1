import Invigilation.Proofs.Page.Warning

/-!
# The unload warning over the history of a page

A page and its coordinators use one gate, one after the other. Whether the warning is attached is
decided by the last of them that evaluated a page, detached the warning or began a submission, be
that submission completed, failed or abandoned. No other call touches the gate.

- `Call.ahead`, `Call.gate_run`: a call detaches the warning when the stage for it begins, and never
  else.
- `Gate.Operation`, `Gate.operate`, `Gate.history`: what is done on a page, one after the other.
- `Gate.governed_history`: **the last decisive operation governs the warning**.
-/

namespace Invigilation

namespace Call

open Coordinator (Stage Task)

/-! ## Calls and the gate -/

/-- The stages of a call that have not begun. -/
def ahead (call : Call) : List Stage :=
  match call.phase with
  | .working stages => stages
  | .inSession _ rest | .inRequest _ _ rest => rest
  | .over _ => []

variable {call : Call} {gate : Gate} {c : Coordinator} {t : Task}

theorem ahead_continuing (c : Coordinator) (t : Task) (stages : List Stage) :
    ahead ⟨c, t, continuing c t stages⟩ = stages := by
  cases stages <;> rfl

/-- Whatever comes of a session, nothing is ahead but what was behind it in the plan. -/
theorem ahead_afterSession (call : Call) (s : Session) (rest : List Stage) :
    ahead { call with phase := call.afterSession s rest } = rest ∨
      ahead { call with phase := call.afterSession s rest } = [] := by
  unfold afterSession
  match s.result? with
  | none => exact .inl rfl
  | some (_, .answered) => exact .inl (ahead_continuing _ _ rest)
  | some (_, .failed e) => exact .inr rfl
  | some (_, .abandoned) => exact .inr rfl

/-- A move leaves ahead what was ahead, or all of it but the first stage, or nothing. -/
theorem ahead_step (call : Call) (gate : Gate) (m : Move) :
    (call.step gate m).1.ahead = call.ahead ∨ (call.step gate m).1.ahead = call.ahead.tail ∨
      (call.step gate m).1.ahead = [] := by
  obtain ⟨coordinator, task, phase⟩ := call
  cases phase with
  | «over» result => cases m <;> exact .inl rfl
  | inSession s rest =>
    cases m with
    | proceed | reply => exact .inl rfl
    | session m | abandon now => exact (ahead_afterSession _ _ rest).imp_right .inr
  | inRequest a url rest =>
    cases m with
    | proceed | session => exact .inl rfl
    | abandon => exact .inr (.inr rfl)
    | reply reply =>
      simp only [step, stepPhase]
      cases Client.concludeUpdate url reply with
      | ok => exact .inl (ahead_continuing _ _ rest)
      | error e => exact .inr (.inr rfl)
  | working stages =>
    cases stages with
    | nil =>
      cases m with
      | proceed | session | reply => exact .inl rfl
      | abandon => exact .inr (.inr rfl)
    | cons stage rest =>
      cases m with
      | session | reply => exact .inl rfl
      | abandon => exact .inr (.inr rfl)
      | proceed =>
        cases stage with
        | detach | reload => exact .inr (.inl (ahead_continuing _ _ rest))
        | session => exact .inr (.inl rfl)
        | update a url =>
          simp only [step, stepPhase, begin]
          cases coordinator.client.updateRequest url a with
          | ok request => exact .inr (.inl rfl)
          | error e => exact .inr (.inr rfl)

/-- A detachment that is not ahead does not come up. -/
theorem not_mem_ahead_step (h : .detach ∉ call.ahead) (gate : Gate) (m : Move) :
    .detach ∉ (call.step gate m).1.ahead := by
  obtain heq | heq | heq := call.ahead_step gate m
  · rwa [heq]
  · rw [heq]
    exact fun hmem => h (List.mem_of_mem_tail hmem)
  · rw [heq]
    exact List.not_mem_nil

/-- A call with no detachment ahead leaves the gate as it is. -/
theorem gate_step_of_not_mem (h : .detach ∉ call.ahead) (gate : Gate) (m : Move) :
    (call.step gate m).2.1 = gate := by
  obtain ⟨coordinator, task, phase⟩ := call
  cases phase with
  | «over» | inSession => cases m <;> rfl
  | inRequest a url rest =>
    cases m with
    | proceed | session | abandon => rfl
    | reply reply =>
      simp only [step, stepPhase]
      cases Client.concludeUpdate url reply <;> rfl
  | working stages =>
    cases stages with
    | nil => cases m <;> rfl
    | cons stage rest =>
      cases m with
      | session | reply | abandon => rfl
      | proceed =>
        cases stage with
        | detach => exact absurd List.mem_cons_self h
        | session | reload => rfl
        | update a url =>
          simp only [step, stepPhase, begin]
          cases coordinator.client.updateRequest url a <;> rfl

theorem gate_run_of_not_mem (h : .detach ∉ call.ahead) (moves : List Move) :
    (call.run gate moves).2.1 = gate := by
  induction moves generalizing call gate with
  | nil => rfl
  | cons m rest ih =>
    rw [run_cons, ih (not_mem_ahead_step h gate m), gate_step_of_not_mem h]

theorem ahead_start (c : Coordinator) (t : Task) : (start c t).ahead = c.plan t :=
  ahead_continuing c t _

theorem not_mem_sessions (c : Coordinator) (p : Prompt) (timeout : Option Nat) :
    .detach ∉ c.sessions p timeout := by
  simp [Coordinator.sessions]

/-- A start and a ping leave the gate as it is, whatever comes of them. -/
theorem gate_run_start (h : ∀ url, t ≠ .act .submit url) (moves : List Move) :
    ((start c t).run gate moves).2.1 = gate := by
  refine gate_run_of_not_mem ?_ moves
  rw [ahead_start]
  match t with
  | .ping => exact not_mem_sessions c .ping _
  | .act .start url => simp [Coordinator.plan, not_mem_sessions]
  | .act .submit url => exact absurd rfl (h url)

/-- Whether a call gets to begin before it is abandoned. -/
def isStarted : List Move → Bool
  | [] => false
  | .proceed :: _ => true
  | .abandon _ :: _ => false
  | .session _ :: rest | .reply _ :: rest => isStarted rest

/-- A submission detaches the warning once it has begun, whatever comes of it then. -/
theorem gate_run_submit (c : Coordinator) (url : String) (gate : Gate) (moves : List Move) :
    ((start c (.act .submit url)).run gate moves).2.1 =
      if isStarted moves then gate.detach else gate := by
  induction moves with
  | nil => rfl
  | cons m rest ih =>
    rw [run_cons]
    cases m with
    -- a submission that has not begun waits for nothing
    | session | reply => exact ih
    | abandon now => exact gate_run_of_not_mem List.not_mem_nil rest
    | proceed =>
      refine gate_run_of_not_mem ?_ rest
      show .detach ∉ ahead ⟨c, _, continuing c _ _⟩
      rw [ahead_continuing]
      simp [not_mem_sessions]

/-- A call that is over stays so. -/
theorem phase_run_over {result : Result} (h : call.phase = .over result) (gate : Gate)
    (moves : List Move) : (call.run gate moves).1.phase = .over result := by
  induction moves generalizing call gate with
  | nil => exact h
  | cons m rest ih =>
    have hstep : (call.step gate m).1.phase = .over result := by
      unfold step
      rw [h]
      cases m <;> rfl
    exact ih hstep _

/-- A submission that was not abandoned before it had begun has no other result than that. -/
theorem isStarted_of_result {url : String} {moves : List Move} {result : Result}
    (h : ((start c (.act .submit url)).run gate moves).1.result? = some result)
    (hresult : result ≠ .abandoned) : isStarted moves = true := by
  induction moves with
  | nil => cases h
  | cons m rest ih =>
    cases m with
    | proceed => rfl
    | session | reply => exact ih h
    | abandon now =>
      have hleft : (Call.mk c (.act .submit url) (.over .abandoned)).phase = .over .abandoned := rfl
      have hover := phase_run_over hleft gate rest
      have hphase : Phase.over .abandoned = .over result :=
        hover.symm.trans (result?_eq_some_iff.mp h)
      cases hphase
      exact absurd rfl hresult

end Call

namespace Gate

/-! ## Operations -/

/-- What is done on a page. -/
inductive Operation where
  | evaluate (s : PageState)
  | detach
  | beforeUnload
  /-- A coordinator is asked for something, and these moves are made of it. -/
  | call (c : Coordinator) (t : Coordinator.Task) (moves : List Call.Move)

/-- What comes of an operation. -/
inductive Answer where
  /-- Whether leaving the page warns. -/
  | evaluated (attached : Bool)
  | detached
  | shown (text : Option String)
  /-- The result of a call, if it has ended. -/
  | called (result : Option Call.Result)

/-- The effect of an operation on the gate, and what comes of it. -/
def operate (g : Gate) : Operation → Gate × Answer
  | .evaluate s => ((g.assess s).1, .evaluated (g.assess s).2)
  | .detach => (g.detach, .detached)
  | .beforeUnload => (g, .shown g.beforeUnload)
  | .call c t moves =>
    let (call, gate, _) := (Call.start c t).run g moves
    (gate, .called call.result?)

/-- The gate after operations, one after the other. -/
def history (g : Gate) (operations : List Operation) : Gate :=
  operations.foldl (fun g o => (g.operate o).1) g

namespace Operation

/-- What an operation does to the registration of the warning. -/
def writing? : Operation → Option Writing
  | .evaluate s => some (.evaluated s)
  | .detach => some .detached
  | .call _ (.act .submit _) moves => if Call.isStarted moves then some .detached else none
  | .beforeUnload | .call _ (.act .start _) _ | .call _ .ping _ => none

/-- Whether an operation decides if the warning is attached: an evaluation, a detachment, and a
submission that has begun. -/
def isDecisive : Operation → Bool
  | .evaluate _ | .detach => true
  | .call _ (.act .submit _) moves => Call.isStarted moves
  | .beforeUnload | .call _ (.act .start _) _ | .call _ .ping _ => false

/-- Whether an operation is the evaluation of a page that warrants the warning. -/
def warns : Operation → Bool
  | .evaluate s => s.warrantsWarning
  | .detach | .beforeUnload | .call _ _ _ => false

theorem warns_eq_true_iff (o : Operation) : o.warns = true ↔ ∃ s, o = .evaluate s ∧
    s.takingAsProctored = true ∧ 0 < s.secondsRemaining ∧ s.inCourseware = true := by
  constructor
  · intro h
    cases o with
    | detach | beforeUnload | call => cases h
    | evaluate s => exact ⟨s, rfl, by simpa [warns, PageState.warrantsWarning, and_assoc] using h⟩
  · rintro ⟨s, rfl, htaking, htime, hplace⟩
    simp [warns, PageState.warrantsWarning, htaking, htime, hplace]

end Operation

/-- An operation does to the gate what it writes, if anything. -/
theorem operate_eq (g : Gate) (o : Operation) :
    (g.operate o).1 = o.writing?.toList.foldl Gate.write g := by
  match o with
  | .evaluate _ | .detach | .beforeUnload => rfl
  | .call c (.act .start url) moves => exact Call.gate_run_start (by simp) moves
  | .call c .ping moves => exact Call.gate_run_start (by simp) moves
  | .call c (.act .submit url) moves =>
    show ((Call.start c (.act .submit url)).run g moves).2.1 = _
    rw [Call.gate_run_submit, Operation.writing?]
    cases Call.isStarted moves <;> rfl

/-! ## Histories -/

/-- What a history has left of a gate with a message. -/
structure Kept (message : String) (operations : List Operation) (g : Gate) : Prop where
  same : g.message = message
  registered : g.registered =
    if (operations.filter Operation.isDecisive).getLast?.any Operation.warns then some message
    else none

variable {g : Gate} {message : String} {operations : List Operation}

theorem Kept.faithful (h : Kept message operations g) : g.Faithful := by
  intro text htext
  rw [h.registered] at htext
  split at htext
  · rw [h.same, ← Option.some.inj htext]
  · cases htext

/-- An operation that decides nothing leaves everything as it was. -/
theorem Kept.idle (h : Kept message operations g) {o : Operation} (ho : o.isDecisive = false)
    (hsame : (g.operate o).1 = g) : Kept message (operations ++ [o]) (g.operate o).1 := by
  rw [hsame]
  refine ⟨h.same, ?_⟩
  rw [List.filter_append, List.filter_cons_of_neg (by simp [ho]), List.filter_nil, List.append_nil]
  exact h.registered

/-- An operation that decides does so whatever was before. -/
theorem Kept.decide (h : Kept message operations g) {o : Operation} (ho : o.isDecisive = true)
    {w : Writing} (hwritten : (g.operate o).1 = g.write w) (hwarns : w.attaches = o.warns) :
    Kept message (operations ++ [o]) (g.operate o).1 := by
  rw [hwritten, h.faithful.write_cases w, h.same]
  refine ⟨rfl, ?_⟩
  rw [List.filter_append, List.filter_cons_of_pos ho, List.filter_nil, List.getLast?_concat,
    hwarns]
  rfl

/-- Every operation keeps the account. -/
theorem Kept.operate (h : Kept message operations g) (o : Operation) :
    Kept message (operations ++ [o]) (g.operate o).1 := by
  have hwritten := g.operate_eq o
  match o with
  | .evaluate s => exact h.decide (w := .evaluated s) rfl hwritten rfl
  | .detach => exact h.decide (w := .detached) rfl hwritten rfl
  | .beforeUnload | .call _ (.act .start _) _ | .call _ .ping _ => exact h.idle rfl hwritten
  | .call c (.act .submit url) moves =>
    rw [Operation.writing?] at hwritten
    cases hstarted : Call.isStarted moves with
    | true =>
      rw [hstarted] at hwritten
      exact h.decide (w := .detached) hstarted hwritten rfl
    | false =>
      rw [hstarted] at hwritten
      exact h.idle hstarted hwritten

theorem Kept.history (h : Kept message operations g) (later : List Operation) :
    Kept message (operations ++ later) (g.history later) := by
  induction later generalizing g operations with
  | nil => rwa [List.append_nil]
  | cons o rest ih =>
    have hrest := ih (h.operate o)
    rwa [List.append_assoc] at hrest

/-- The warning is attached when the last decisive operation is the evaluation of a page that
warrants it. -/
theorem Kept.isAttached_iff (h : Kept message operations g) : g.isAttached = true ↔
    ∃ o, (operations.filter Operation.isDecisive).getLast? = some o ∧ o.warns = true := by
  unfold isAttached
  rw [h.registered]
  cases (operations.filter Operation.isDecisive).getLast? with
  | none => simp
  | some o => cases hwarns : o.warns <;> simp [hwarns]

/-- Whoever leaves is shown the message of the gate, or nothing. -/
theorem Kept.beforeUnload_eq (h : Kept message operations g) :
    g.beforeUnload = if g.isAttached then some message else none := by
  unfold beforeUnload isAttached
  rw [h.registered]
  split <;> rfl

/-- An evaluation answers whether it leaves the warning attached. -/
theorem assess_snd (g : Gate) (s : PageState) : (g.assess s).2 = (g.assess s).1.isAttached := by
  unfold assess
  split
  · unfold attach
    split
    · rfl
    · next text htext => simp [isAttached, htext]
  · rfl

/-- What governs the warning of a gate after operations, and what the next one finds. -/
structure Governed (message : String) (operations : List Operation) (g : Gate) : Prop where
  /-- The warning is attached when the last decisive operation was the evaluation of a page on which
  a proctored attempt with time left is taken. -/
  attached : g.isAttached = true ↔
    ∃ s, (operations.filter Operation.isDecisive).getLast? = some (.evaluate s) ∧
      s.takingAsProctored = true ∧ 0 < s.secondsRemaining ∧ s.inCourseware = true
  /-- Whoever leaves is then shown the message, and else nothing. -/
  shown : (g.operate .beforeUnload).2 = .shown (if g.isAttached then some message else none)
  /-- An evaluation answers whether the warning is attached right after it. -/
  evaluated : ∀ s, (g.operate (.evaluate s)).2 = .evaluated (g.operate (.evaluate s)).1.isAttached
  /-- Calls that do not submit leave the gate as it is. -/
  untouched : ∀ c t moves, (∀ url, t ≠ .act .submit url) → (g.operate (.call c t moves)).1 = g
  /-- A submission with a result was decisive, unless it was abandoned. -/
  decisive : ∀ c url moves result,
    (g.operate (.call c (.act .submit url) moves)).2 = .called (some result) →
      result ≠ .abandoned → (Operation.call c (.act .submit url) moves).isDecisive = true

/-- **The last decisive operation governs the warning**, after every history of a page. -/
theorem governed_history (message : String) (operations : List Operation) :
    Governed message operations (history ⟨message, none⟩ operations) := by
  have hfresh : Kept message [] ⟨message, none⟩ := ⟨rfl, rfl⟩
  have hkept := hfresh.history operations
  rw [List.nil_append] at hkept
  constructor
  case attached =>
    rw [hkept.isAttached_iff]
    constructor
    · rintro ⟨o, hlast, hwarns⟩
      obtain ⟨s, rfl, hstate⟩ := o.warns_eq_true_iff.mp hwarns
      exact ⟨s, hlast, hstate⟩
    · rintro ⟨s, hlast, hstate⟩
      exact ⟨_, hlast, (Operation.warns_eq_true_iff _).mpr ⟨s, rfl, hstate⟩⟩
  case shown => exact congrArg Answer.shown hkept.beforeUnload_eq
  case evaluated => exact fun s => congrArg Answer.evaluated (assess_snd _ s)
  case untouched => exact fun c t moves h => Call.gate_run_start h moves
  case decisive =>
    intro c url moves result hresult hended
    exact Call.isStarted_of_result (Answer.called.inj hresult) hended

end Gate

end Invigilation
