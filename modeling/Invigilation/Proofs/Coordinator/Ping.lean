import Invigilation.Proofs.Coordinator.Sequence
import Invigilation.Proofs.Session.Outcome
import Mathlib.Data.List.Count

/-!
# Pings

A ping asks after the health of a worker and does nothing else. It is one session, so that nothing
is seen of it but the events of that session, and the timeout of pings bounds it, whatever bounds
the other prompts.

- `Coordinator.inquiry`, `Call.inquired`: the session of a ping, and its moves.
- `Call.run_ping`: a ping does what its session does.
- `Call.endedAt?`: when a call ends.
- `Call.Harmless`: what holds of a ping at every point of its run, in whatever order things happen.
- `Call.Timely`: what comes of a ping when its host does not lag behind.
- `Call.ping_harmless`: **a ping is harmless, and it ends in time**.
-/

namespace Invigilation

open Link (FarStep)

/-! ## The session of a ping -/

/-- The session of a ping for a worker. Its timeout is that of pings. -/
def Coordinator.inquiry (c : Coordinator) (entryPoint : String) : Session :=
  ⟨⟨Prompt.ping.exchange, some c.pingTimeout, c.workerOptions⟩, entryPoint, .unopened⟩

theorem Coordinator.usesWorker_of_target {c : Coordinator} {entryPoint : String}
    (h : c.target? = some entryPoint) : c.usesWorker = true := by
  unfold usesWorker
  rw [h]
  rfl

namespace Call

open Coordinator (Stage Task)

/-- What a move of a call is to the session it is in. -/
def Move.session? : Move → Option Session.Move
  | .session m => some m
  | .abandon now => some (.abandon now)
  | .proceed | .reply _ => none

/-- When a move of a call happens, if it tells. -/
def Move.time? (m : Move) : Option Nat :=
  m.session?.bind Session.Move.time?

/-- When a call that is not over ends. -/
def endedAt? (call : Call) (gate : Gate) : List Move → Option Nat
  | [] => none
  | m :: rest =>
    let (next, gate, _) := call.step gate m
    if next.result?.isSome then m.time? else next.endedAt? gate rest

/-- The result of a ping for a worker, by the outcome of its session. -/
def Result.ofOutcome : Session.Outcome → Result
  | .answered => .pinged true
  | .failed e => .failed (.session e)
  | .abandoned => .abandoned

/-- The moves of a ping that mean something to its session. A ping that is abandoned before it has
begun is as one whose session is abandoned before it was opened. -/
def inquired : List Move → List Session.Move
  | [] => []
  | .proceed :: rest => rest.filterMap Move.session?
  | .abandon now :: _ => [.abandon now]
  | .session _ :: rest | .reply _ :: rest => inquired rest

variable {c : Coordinator} {gate : Gate} {entryPoint : String} {s : Session}

/-- A call that is over does nothing more. -/
theorem run_of_over {call : Call} {result : Result} (h : call.phase = .over result)
    (moves : List Move) : call.run gate moves = (call, gate, []) := by
  have hstep : ∀ m, call.step gate m = (call, gate, []) := by
    intro m
    obtain ⟨coordinator, task, phase⟩ := call
    obtain rfl : phase = .over result := h
    cases m <;> rfl
  induction moves with
  | nil => rfl
  | cons m rest ih =>
    rw [run_cons, hstep]
    exact Prod.ext (congrArg (·.1) ih) (congrArg (·.2) ih)

/-! ## A ping does what its session does -/

/-- Where a ping stands when its session stands here: in it, or at its result. -/
def inquiring (s : Session) : Phase :=
  match s.result? with
  | none => .inSession s []
  | some (_, outcome) => .over (.ofOutcome outcome)

theorem inquiring_of_still (still : s.result? = none) : inquiring s = .inSession s [] := by
  unfold inquiring
  rw [still]

theorem inquiring_of_result {time : Nat} {outcome : Session.Outcome}
    (h : s.result? = some (time, outcome)) : inquiring s = .over (.ofOutcome outcome) := by
  unfold inquiring
  rw [h]

theorem afterSession_ping (huses : c.usesWorker = true) (phase : Phase) (s : Session) :
    afterSession ⟨c, .ping, phase⟩ s [] = inquiring s := by
  unfold afterSession inquiring
  match s.result? with
  | none | some (_, .failed e) | some (_, .abandoned) => rfl
  | some (_, .answered) =>
    show Phase.over (.pinged c.usesWorker) = _
    rw [huses]
    rfl

/-- One move of a ping is one move of its session, or none. -/
theorem step_inquiring (huses : c.usesWorker = true) (s : Session) (gate : Gate) (m : Move) :
    step ⟨c, .ping, inquiring s⟩ gate m =
      match m.session? with
      | none => (⟨c, .ping, inquiring s⟩, gate, [])
      | some m => (⟨c, .ping, inquiring (s.step m).1⟩, gate, (s.step m).2.map .session) := by
  cases hresult : s.result? with
  | none =>
    rw [inquiring_of_still hresult]
    cases m with
    | proceed | reply => rfl
    | session m =>
      show (Call.mk c .ping (afterSession _ (s.step m).1 []), _, _) = _
      rw [afterSession_ping huses]
      rfl
    | abandon now =>
      show (Call.mk c .ping (afterSession _ (s.step (.abandon now)).1 []), _, _) = _
      rw [afterSession_ping huses]
      rfl
  | some result =>
    obtain ⟨time, outcome⟩ := result
    rw [inquiring_of_result hresult]
    cases hm : m.session? with
    | none => cases m <;> rfl
    | some m' =>
      have hquiet : (s.step m').2 = [] := by
        have hnone := Session.events_run_of_over hresult [m']
        rwa [Session.run_cons, show ((s.step m').1.run []).2 = [] from rfl,
          List.append_nil] at hnone
      dsimp only
      rw [inquiring_of_result (Session.result?_step hresult m'), hquiet]
      cases m <;> rfl

/-- A run of a ping is a run of its session. -/
theorem run_inquiring (huses : c.usesWorker = true) (s : Session) (gate : Gate)
    (moves : List Move) :
    run ⟨c, .ping, inquiring s⟩ gate moves =
      (⟨c, .ping, inquiring (s.run (moves.filterMap Move.session?)).1⟩, gate,
        (s.run (moves.filterMap Move.session?)).2.map .session) := by
  induction moves generalizing s with
  | nil => rfl
  | cons m rest ih =>
    rw [run_cons, step_inquiring huses]
    cases hm : m.session? with
    | none =>
      rw [List.filterMap_cons_none hm]
      exact ih s
    | some m' =>
      rw [List.filterMap_cons_some hm, Session.run_cons, List.map_append]
      dsimp only
      rw [ih]

/-- A ping ends when its session does. -/
theorem endedAt?_inquiring (huses : c.usesWorker = true) (still : s.result? = none) (gate : Gate)
    (moves : List Move) :
    endedAt? ⟨c, .ping, inquiring s⟩ gate moves =
      (s.run (moves.filterMap Move.session?)).1.result?.map (·.1) := by
  induction moves generalizing s with
  | nil =>
    show none = s.result?.map (·.1)
    rw [still]
    rfl
  | cons m rest ih =>
    unfold endedAt?
    rw [step_inquiring huses]
    cases hm : m.session? with
    | none =>
      rw [List.filterMap_cons_none hm]
      dsimp only
      rw [inquiring_of_still still, if_neg (by simp [result?]), ← inquiring_of_still still]
      exact ih still
    | some m' =>
      rw [List.filterMap_cons_some hm, Session.run_cons]
      dsimp only
      cases hresult : (s.step m').1.result? with
      | none =>
        rw [inquiring_of_still hresult, if_neg (by simp [result?]), ← inquiring_of_still hresult]
        exact ih hresult
      | some result =>
        obtain ⟨time, outcome⟩ := result
        rw [inquiring_of_result hresult, if_pos (by simp [result?]),
          Session.result?_run hresult]
        unfold Move.time?
        rw [hm]
        exact Session.time?_of_result still hresult

/-- A ping without a worker to use is over at once. -/
theorem start_ping_of_none (htarget : c.target? = none) :
    start c .ping = ⟨c, .ping, .over (.pinged false)⟩ := by
  unfold start Coordinator.plan Coordinator.sessions
  dsimp only
  rw [htarget]
  show (Call.mk c .ping (.over (.pinged c.usesWorker))) = _
  unfold Coordinator.usesWorker
  rw [htarget]
  rfl

/-- A ping for a worker has its session before it. -/
theorem start_ping_of_some (htarget : c.target? = some entryPoint) :
    start c .ping =
      ⟨c, .ping, .working [.session (c.inquiry entryPoint).request entryPoint]⟩ := by
  unfold start Coordinator.plan Coordinator.sessions
  dsimp only
  rw [htarget]
  rfl

/-- **A ping does what its session does**, once it has begun. The gate stays as it is. -/
theorem run_ping (htarget : c.target? = some entryPoint) (gate : Gate) (moves : List Move) :
    ((start c .ping).run gate moves).2 =
        (gate, ((c.inquiry entryPoint).run (inquired moves)).2.map .session) ∧
      (((start c .ping).run gate moves).1 =
          ⟨c, .ping, inquiring ((c.inquiry entryPoint).run (inquired moves)).1⟩ ∨
        inquired moves = [] ∧ ((start c .ping).run gate moves).1 = start c .ping) := by
  have huses := Coordinator.usesWorker_of_target htarget
  have hstart := start_ping_of_some htarget
  induction moves with
  | nil => exact ⟨rfl, .inr ⟨rfl, rfl⟩⟩
  | cons m rest ih =>
    rw [run_cons]
    cases m with
    -- a ping that has not begun waits for nothing
    | session m | reply m =>
      rw [hstart] at ih ⊢
      exact ih
    | proceed =>
      have hstep : (start c .ping).step gate .proceed =
          (⟨c, .ping, inquiring (c.inquiry entryPoint)⟩, gate, []) := by
        rw [hstart]
        rfl
      rw [hstep]
      dsimp only
      rw [run_inquiring huses]
      exact ⟨rfl, .inl rfl⟩
    | abandon now =>
      have hstep : (start c .ping).step gate (.abandon now) =
          (⟨c, .ping, .over .abandoned⟩, gate, []) := by
        rw [hstart]
        rfl
      rw [hstep]
      dsimp only
      rw [run_of_over rfl]
      exact ⟨rfl, .inl rfl⟩

/-- A ping for a worker ends when its session does. -/
theorem endedAt?_ping (htarget : c.target? = some entryPoint) (gate : Gate) (moves : List Move) :
    (start c .ping).endedAt? gate moves =
      ((c.inquiry entryPoint).run (inquired moves)).1.result?.map (·.1) := by
  have huses := Coordinator.usesWorker_of_target htarget
  have hstart := start_ping_of_some htarget
  induction moves with
  | nil => rfl
  | cons m rest ih =>
    rw [hstart] at ih ⊢
    cases m with
    | session | reply => exact ih
    | abandon now => rfl
    | proceed => exact endedAt?_inquiring (s := c.inquiry entryPoint) huses rfl gate rest

/-- The course of a ping is its beginning, and then that of its session. -/
theorem course_ping (htarget : c.target? = some entryPoint) (w : World) (gate : Gate) :
    (start c .ping).course w gate =
      .proceed :: ((c.inquiry entryPoint).course w.spawner w.patience).map .session := by
  rw [start_ping_of_some htarget]
  show Move.proceed :: (((c.inquiry entryPoint).course w.spawner w.patience).map Move.session ++
    []) = _
  rw [List.append_nil]

theorem inquired_course (ms : List Session.Move) :
    inquired (.proceed :: ms.map .session) = ms := by
  show (ms.map Move.session).filterMap Move.session? = ms
  rw [List.filterMap_map]
  exact List.filterMap_some

/-! ## What holds of a ping -/

/-- The requests for a worker among the events of a call: the entry point, and whether there was a
worker. -/
def asks (events : List Event) : List (String × Bool) :=
  events.filterMap fun
    | .session (.spawned entryPoint obtained) => some (entryPoint, obtained)
    | _ => none

theorem asks_map_session (seen : List Session.Event) :
    asks (seen.map .session) = Session.asked seen := by
  unfold asks Session.asked
  rw [List.filterMap_map]
  congr 1
  funext e
  cases e <;> rfl

theorem count_terminated_map_session (seen : List Session.Event) :
    (seen.map Event.session).count (.session .terminated) = seen.count .terminated := by
  refine List.count_map_of_injective seen Event.session (fun e e' h => ?_) .terminated
  cases h
  rfl

/-- What holds of a ping for a worker at every point of its run:
1. it asks for the worker once at most, by the entry point that is set;
2. once it has a result, the worker that it obtained was ended once;
3. it succeeds if it has received an echo, and only then;
4. its other results are a failure of its session, and that the caller lost interest;
5. when it waits for the echo, the wait began in a turn of its host that found everything sent; and
   once the timeout of pings has passed since that turn, each further turn takes a queued reply or
   ends the ping, so that it has ended when there were more turns than replies. -/
structure Tended (c : Coordinator) (entryPoint : String) (gate : Gate) (moves : List Move)
    (call : Call) (events : List Event) : Prop where
  asked_once : asks events = [] ∨ ∃ obtained, asks events = [(entryPoint, obtained)]
  ended_once : call.result?.isSome → Balanced events
  pinged_iff : call.result? = some (.pinged true) ↔ .session (.matched .echo) ∈ events
  result : ∀ result, call.result? = some result →
    result = .pinged true ∨ (∃ e, result = .failed (.session e)) ∨ result = .abandoned
  bounded : ∀ s rest p deadline, call.phase = .inSession s rest →
    s.phase = .live p (.awaiting deadline) →
    ∃ before now after, moves = before ++ .session (.host now) :: after ∧
      (∃ s₀ p₀, ((start c .ping).run gate before).1.phase = .inSession s₀ rest ∧
        s₀.phase = .live p₀ (.posting [])) ∧
      ∀ later : List Move,
        (∀ time, .host time ∈ later.filterMap Move.session? → now + c.pingTimeout ≤ time) →
        p.replies.queue.length + (later.filterMap Move.session?).countP Session.Move.isReply <
          (later.filterMap Move.session?).countP Session.Move.isTurn →
        (call.run gate later).1.result?.isSome

/-- What holds of a ping at every point of its run: the gate is as it was; nothing is seen but the
events of a session, so that there is no request, no update and no reload; without a worker to use
there is a result from the start, and nothing is seen at all; and otherwise the worker is tended. -/
structure Harmless (c : Coordinator) (gate : Gate) (moves : List Move) : Prop where
  gate_kept : ((start c .ping).run gate moves).2.1 = gate
  only_session : ∀ event ∈ ((start c .ping).run gate moves).2.2, ∃ e, event = .session e
  unasked : c.target? = none →
    ((start c .ping).run gate moves).1.result? = some (.pinged false) ∧
      ((start c .ping).run gate moves).2.2 = []
  tended : ∀ entryPoint, c.target? = some entryPoint →
    Tended c entryPoint gate moves ((start c .ping).run gate moves).1
      ((start c .ping).run gate moves).2.2

/-- The life of the session of a ping. -/
theorem life_inquiry (c : Coordinator) (entryPoint : String) (ms : List Session.Move) :
    Session.Life ⟨Prompt.ping.exchange, some c.pingTimeout, c.workerOptions⟩ entryPoint
      ((c.inquiry entryPoint).run ms).1.phase ((c.inquiry entryPoint).run ms).2 :=
  Session.Life.run (s := c.inquiry entryPoint) .unopened ms

/-- The result of a ping is the outcome of its session. -/
theorem result?_ping (htarget : c.target? = some entryPoint) (gate : Gate) (moves : List Move) :
    ((start c .ping).run gate moves).1.result? =
      ((c.inquiry entryPoint).run (inquired moves)).1.result?.map fun (_, outcome) =>
        .ofOutcome outcome := by
  obtain ⟨-, hcall | ⟨hnone, hcall⟩⟩ := run_ping htarget gate moves
  · rw [hcall]
    unfold inquiring
    split <;> simp [result?, *]
  · rw [hcall, hnone, start_ping_of_some htarget]
    rfl

/-- The turn in which the session of a ping begins to wait is a turn of the ping. -/
theorem exists_of_inquired {moves : List Move} {before after : List Session.Move} {now : Nat}
    (h : inquired moves = before ++ .host now :: after) :
    ∃ before' after', moves = before' ++ .session (.host now) :: after' ∧
      inquired before' = before := by
  have hproceed : ∀ {rest : List Move},
      rest.filterMap Move.session? = before ++ .host now :: after →
      ∃ before' after', rest = before' ++ .session (.host now) :: after' ∧
        before'.filterMap Move.session? = before := by
    intro rest hrest
    obtain ⟨front, back, rfl, hfront, hback⟩ := List.filterMap_eq_append_iff.mp hrest
    obtain ⟨idle, m, later, rfl, hidle, hm, -⟩ := List.filterMap_eq_cons_iff.mp hback
    obtain rfl : m = .session (.host now) := by
      cases m with
      | session m => cases hm; rfl
      | proceed | reply | abandon => cases hm
    refine ⟨front ++ idle, later, by simp, ?_⟩
    have hnone : idle.filterMap Move.session? = [] := List.filterMap_eq_nil_iff.mpr hidle
    rw [List.filterMap_append, hfront, hnone, List.append_nil]
  induction moves with
  | nil => simp [inquired] at h
  | cons m rest ih =>
    cases m with
    | proceed =>
      obtain ⟨before', after', rfl, hbefore⟩ := hproceed h
      exact ⟨.proceed :: before', after', rfl, hbefore⟩
    | abandon time =>
      obtain ⟨hnil, habsurd⟩ | ⟨front, hfront, hnil⟩ := List.cons_eq_append_iff.mp h
      · cases habsurd
      · simp at hnil
    | session m | reply m =>
      obtain ⟨before', after', rfl, hbefore⟩ := ih h
      exact ⟨_ :: before', after', rfl, hbefore⟩

/-- A ping in its session is where its session is. -/
theorem inSession_ping (htarget : c.target? = some entryPoint) {gate : Gate} {moves : List Move}
    {rest : List Stage} (h : ((start c .ping).run gate moves).1.phase = .inSession s rest) :
    ((c.inquiry entryPoint).run (inquired moves)).1 = s ∧ rest = [] ∧
      ((start c .ping).run gate moves).1 = ⟨c, .ping, inquiring s⟩ := by
  obtain ⟨-, hcall | ⟨-, hcall⟩⟩ := run_ping htarget gate moves
  · rw [hcall] at h ⊢
    dsimp only at h ⊢
    cases hresult : ((c.inquiry entryPoint).run (inquired moves)).1.result? with
    | none =>
      rw [inquiring_of_still hresult] at h ⊢
      cases h
      exact ⟨rfl, rfl, by rw [inquiring_of_still hresult]⟩
    | some result =>
      obtain ⟨time, outcome⟩ := result
      rw [inquiring_of_result hresult] at h
      cases h
  · rw [hcall, start_ping_of_some htarget] at h
    cases h

/-- A ping is in its session while that is not over. -/
theorem inSession_of_live (htarget : c.target? = some entryPoint) {moves : List Move} {p : Port}
    {progress : Session.Progress}
    (h : ((c.inquiry entryPoint).run (inquired moves)).1.phase = .live p progress) (gate : Gate) :
    ((start c .ping).run gate moves).1.phase =
      .inSession ((c.inquiry entryPoint).run (inquired moves)).1 [] := by
  obtain ⟨-, hcall | ⟨hnone, -⟩⟩ := run_ping htarget gate moves
  · rw [hcall]
    refine inquiring_of_still ?_
    unfold Session.result?
    rw [h]
  · rw [hnone] at h
    cases h

/-- The timeout of pings bounds the wait of a ping. -/
theorem bounded_run (htarget : c.target? = some entryPoint) {gate : Gate} {moves : List Move}
    {rest : List Stage} {p : Port} {deadline : Option Nat}
    (hphase : ((start c .ping).run gate moves).1.phase = .inSession s rest)
    (hwaiting : s.phase = .live p (.awaiting deadline)) :
    ∃ before now after, moves = before ++ .session (.host now) :: after ∧
      (∃ s₀ p₀, ((start c .ping).run gate before).1.phase = .inSession s₀ rest ∧
        s₀.phase = .live p₀ (.posting [])) ∧
      ∀ later : List Move,
        (∀ time, .host time ∈ later.filterMap Move.session? → now + c.pingTimeout ≤ time) →
        p.replies.queue.length + (later.filterMap Move.session?).countP Session.Move.isReply <
          (later.filterMap Move.session?).countP Session.Move.isTurn →
        (((start c .ping).run gate moves).1.run gate later).1.result?.isSome := by
  have huses := Coordinator.usesWorker_of_target htarget
  obtain ⟨rfl, rfl, hcall⟩ := inSession_ping htarget hphase
  obtain ⟨before, now, after, hmoves, ⟨p₀, hsent⟩, hdeadline⟩ :=
    Session.exists_turn_of_awaiting rfl hwaiting
  obtain ⟨before', after', rfl, rfl⟩ := exists_of_inquired hmoves
  refine ⟨before', now, after', rfl, ⟨_, p₀, inSession_of_live htarget hsent gate, hsent⟩,
    fun later hdue hturns => ?_⟩
  obtain rfl : deadline = some (now + c.pingTimeout) := hdeadline
  have hover := Session.isOver_of_due hwaiting hdue hturns
  obtain ⟨⟨time, outcome⟩, hresult⟩ := Option.isSome_iff_exists.mp hover
  rw [hcall, run_inquiring huses]
  dsimp only
  rw [inquiring_of_result hresult]
  rfl

/-- A ping for a worker is tended at every point of its run. -/
theorem tended_run (htarget : c.target? = some entryPoint) (gate : Gate) (moves : List Move) :
    Tended c entryPoint gate moves ((start c .ping).run gate moves).1
      ((start c .ping).run gate moves).2.2 := by
  have huses := Coordinator.usesWorker_of_target htarget
  obtain ⟨hseen, hcall⟩ := run_ping htarget gate moves
  have hresult := result?_ping htarget gate moves
  have life := life_inquiry c entryPoint (inquired moves)
  obtain ⟨s, hs⟩ : ∃ s, ((c.inquiry entryPoint).run (inquired moves)).1 = s := ⟨_, rfl⟩
  obtain ⟨seen, hevents⟩ : ∃ seen, ((c.inquiry entryPoint).run (inquired moves)).2 = seen :=
    ⟨_, rfl⟩
  rw [hs, hevents] at life
  rw [hs] at hcall hresult
  rw [hevents] at hseen
  rw [hseen]
  dsimp only
  refine {
    asked_once := by rw [asks_map_session]; exact life.asked_once
    ended_once := ?_
    pinged_iff := ?_
    result := ?_
    bounded := fun s rest p deadline => bounded_run htarget }
  · intro hsome
    obtain ⟨result, hend⟩ := Option.isSome_iff_exists.mp hsome
    have journey := journey_run c .ping gate moves
    rw [result?_eq_some_iff.mp hend, hseen] at journey
    exact journey.balanced
  · have hmatched : .session (.matched .echo) ∈ seen.map Event.session ↔
        .matched .echo ∈ seen := by simp
    rw [hmatched]
    refine Iff.trans ?_ life.matched_iff.symm
    rw [hresult, Option.map_eq_some_iff]
    constructor
    · rintro ⟨⟨time, outcome⟩, hend, hanswered⟩
      obtain ⟨port, hphase⟩ := Session.phase_of_result? hend
      cases outcome with
      | answered => exact ⟨port, time, hphase⟩
      | failed | abandoned => cases hanswered
    · rintro ⟨port, time, hphase⟩
      exact ⟨_, Session.result?_of_over hphase, rfl⟩
  · intro result hsome
    rw [hresult] at hsome
    obtain ⟨⟨time, outcome⟩, -, rfl⟩ := Option.map_eq_some_iff.mp hsome
    cases outcome with
    | answered => exact .inl rfl
    | failed e => exact .inr (.inl ⟨e, rfl⟩)
    | abandoned => exact .inr (.inr rfl)

/-- A ping is harmless at every point of its run. -/
theorem harmless_run (c : Coordinator) (gate : Gate) (moves : List Move) :
    Harmless c gate moves := by
  cases htarget : c.target? with
  | none =>
    have hrun : (⟨c, .ping, .over (.pinged false)⟩ : Call).run gate moves = (_, gate, []) :=
      run_of_over rfl moves
    rw [← start_ping_of_none htarget] at hrun
    exact {
      gate_kept := by rw [hrun]
      only_session := by rw [hrun]; simp
      unasked := fun _ => by rw [hrun, start_ping_of_none htarget]; exact ⟨rfl, rfl⟩
      tended := by rw [htarget]; simp }
  | some entryPoint =>
    obtain ⟨hseen, -⟩ := run_ping htarget gate moves
    refine {
      gate_kept := by rw [hseen]
      only_session := ?_
      unasked := by rw [htarget]; simp
      tended := fun name hname => tended_run hname gate moves }
    rw [hseen]
    intro event hmem
    obtain ⟨e, -, rfl⟩ := List.mem_map.mp hmem
    exact ⟨e, rfl⟩

/-! ## Pings in time -/

/-- What comes of a ping for a worker when its host does not lag behind. Spawning the worker has
come to an error or to a script, which the worker follows from then on; its session is opened at
time zero.
1. The ping ends, no later than its timeout.
2. It succeeds, or its session fails; it never says that there was no worker.
3. It succeeds if the worker reads, and an echo is among its replies in time and before it leaves;
   and only then.
4. The worker was asked for once, and ended once if there was one. -/
structure Timely (c : Coordinator) (entryPoint : String) (worker : Except SessionError Script)
    (capacity : Nat) (gate : Gate) (moves : List Move) : Prop where
  in_time : ∃ time, (start c .ping).endedAt? gate moves = some time ∧ time ≤ c.pingTimeout
  result : ((start c .ping).run gate moves).1.result? = some (.pinged true) ∨
    ∃ e, ((start c .ping).run gate moves).1.result? = some (.failed (.session e))
  pinged_iff : ((start c .ping).run gate moves).1.result? = some (.pinged true) ↔
    ∃ script, worker = .ok script ∧ .closePrompts ∉ script.upfront ∧
      ∃ before time after,
        (script.fitting capacity).heard (some c.pingTimeout) =
          before ++ (time, .reply (.response .ping)) :: after ∧
        ∀ act ∈ before, act.2 ≠ .closeReplies
  asked_once : asks ((start c .ping).run gate moves).2.2 = [(entryPoint, worker.isOk)]
  ended_once : ((start c .ping).run gate moves).2.2.count (.session .terminated) =
    if worker.isOk then 1 else 0

/-- The only answer to a ping is an echo. -/
theorem answers_echo_iff {f : FarStep} :
    f.answers .echo = true ↔ f = .reply (.response .ping) := by
  cases f with
  | takePrompt | closeReplies | closePrompts => simp [FarStep.answers, FarStep.reply?]
  | reply m =>
    cases m with
    | unknown => simp [FarStep.answers, FarStep.reply?, WorkerMessage.messageType?]
    | response p =>
      cases p <;> simp [FarStep.answers, FarStep.reply?, WorkerMessage.messageType?,
        Prompt.responseType]

theorem isSome_answeredAt?_echo_iff {acts : List (Nat × FarStep)} :
    (Session.answeredAt? .echo acts).isSome ↔
      ∃ before time after, acts = before ++ (time, .reply (.response .ping)) :: after ∧
        ∀ act ∈ before, act.2 ≠ .closeReplies := by
  rw [Session.isSome_answeredAt?_iff]
  constructor
  · rintro ⟨before, time, f, after, hacts, hanswers, hstays⟩
    obtain rfl := answers_echo_iff.mp hanswers
    exact ⟨before, time, after, hacts, hstays⟩
  · rintro ⟨before, time, after, hacts, hstays⟩
    exact ⟨before, time, _, after, hacts, answers_echo_iff.mpr rfl, hstays⟩

/-- The session of a ping comes to its outcome before the caller's patience ends. -/
theorem result?_inquiry_course (c : Coordinator) (entryPoint : String)
    (behaviour : String → Except SessionError Script) {capacity patience : Nat}
    (hroom : 2 ≤ capacity) (hpatience : c.pingTimeout ≤ patience) :
    ∃ time outcome, ((c.inquiry entryPoint).run ((c.inquiry entryPoint).course
        (fun name => (behaviour name).map (·.farEnd capacity)) patience)).1.result? =
          some (time, outcome) ∧
      time ≤ c.pingTimeout ∧ outcome ≠ .abandoned ∧
      (outcome = .answered ↔ ∃ script, behaviour entryPoint = .ok script ∧
        .closePrompts ∉ script.upfront ∧
        (Session.answeredAt? .echo
          ((script.fitting capacity).heard (some c.pingTimeout))).isSome) := by
  have hfits : c.workerOptions.toList.length + 1 ≤ capacity := by
    cases c.workerOptions with
    | none => exact Nat.le_of_succ_le hroom
    | some options => exact hroom
  obtain ⟨time, outcome, houtcome, htime, hleft, hanswered⟩ :=
    Session.outcome?_of_timeout (r := (c.inquiry entryPoint).request) rfl capacity
      (behaviour entryPoint)
  refine ⟨time, outcome, ?_, htime, hleft, hanswered⟩
  have hanswer := Session.result?_course_outcome .ping .echo (some c.pingTimeout)
    c.workerOptions entryPoint behaviour hfits patience
  rw [← Session.within_of_le (Nat.le_trans htime hpatience), ← houtcome]
  exact hanswer

/-- The session of a ping that is over has asked for its worker once, and ended it. -/
theorem asked_inquiry_course (c : Coordinator) (entryPoint : String)
    (behaviour : String → Except SessionError Script) (capacity patience : Nat)
    (hover : ((c.inquiry entryPoint).run ((c.inquiry entryPoint).course
      (fun name => (behaviour name).map (·.farEnd capacity)) patience)).1.isOver = true) :
    Session.asked ((c.inquiry entryPoint).run ((c.inquiry entryPoint).course
        (fun name => (behaviour name).map (·.farEnd capacity)) patience)).2 =
          [(entryPoint, (behaviour entryPoint).isOk)] ∧
      ((c.inquiry entryPoint).run ((c.inquiry entryPoint).course
        (fun name => (behaviour name).map (·.farEnd capacity)) patience)).2.count .terminated =
          if (behaviour entryPoint).isOk then 1 else 0 := by
  have hspawner : ((behaviour entryPoint).map (·.farEnd capacity)).isOk =
      (behaviour entryPoint).isOk := by
    cases behaviour entryPoint <;> rfl
  rw [← hspawner]
  exact Session.asked_course (p := .ping) rfl entryPoint _ patience hover

/-- A ping for a worker comes to its result in time. -/
theorem timely_course (htarget : c.target? = some entryPoint) (gate : Gate) (server : Http.Server)
    (behaviour : String → Except SessionError Script) {capacity patience : Nat}
    (hroom : 2 ≤ capacity) (hpatience : c.pingTimeout ≤ patience) :
    Timely c entryPoint (behaviour entryPoint) capacity gate ((start c .ping).course
      ⟨server, fun name => (behaviour name).map (·.farEnd capacity), patience⟩ gate) := by
  obtain ⟨moves, hcourse⟩ : ∃ moves, moves = (start c .ping).course
    ⟨server, fun name => (behaviour name).map (·.farEnd capacity), patience⟩ gate := ⟨_, rfl⟩
  rw [← hcourse]
  have hmoves : inquired moves = (c.inquiry entryPoint).course
      (fun name => (behaviour name).map (·.farEnd capacity)) patience := by
    rw [hcourse, course_ping htarget, inquired_course]
  obtain ⟨time, outcome, hsession, htime, hleft, hanswered⟩ :=
    result?_inquiry_course c entryPoint behaviour hroom hpatience
  obtain ⟨hasked, hended⟩ := asked_inquiry_course c entryPoint behaviour capacity patience
    (Option.isSome_iff_exists.mpr ⟨_, hsession⟩)
  rw [← hmoves] at hsession hasked hended
  have hresult : ((start c .ping).run gate moves).1.result? = some (.ofOutcome outcome) := by
    rw [result?_ping htarget, hsession]
    rfl
  have hpinged : Result.ofOutcome outcome = .pinged true ↔ outcome = .answered := by
    cases outcome <;> simp [Result.ofOutcome]
  have hevents := (run_ping htarget gate moves).1
  refine {
    in_time := ⟨time, by rw [endedAt?_ping htarget, hsession]; rfl, htime⟩
    result := ?_
    pinged_iff := ?_
    asked_once := by rw [hevents, asks_map_session]; exact hasked
    ended_once := by rw [hevents, count_terminated_map_session]; exact hended }
  · rw [hresult]
    cases outcome with
    | answered => exact .inl rfl
    | failed e => exact .inr ⟨e, rfl⟩
    | abandoned => exact absurd rfl hleft
  · rw [hresult, Option.some_inj, hpinged, hanswered]
    exact exists_congr fun script => and_congr_right fun _ => and_congr_right fun _ =>
      isSome_answeredAt?_echo_iff

/-- **A ping is harmless, and it ends in time.** In whatever order things happen to it, it leaves
the gate as it is and shows nothing but one session with the worker to be used, or is over at once
if there is none. When its host does not lag behind, it ends within the timeout of pings, whatever
the worker does that has room for two messages, and succeeds if an echo comes in time and before
the worker leaves. -/
theorem ping_harmless (c : Coordinator) (gate : Gate) (server : Http.Server)
    (behaviour : String → Except SessionError Script) (capacity patience : Nat)
    (hroom : 2 ≤ capacity) (hpatience : c.pingTimeout ≤ patience) :
    (∀ moves, Harmless c gate moves) ∧
    ∀ entryPoint, c.target? = some entryPoint →
      Timely c entryPoint (behaviour entryPoint) capacity gate ((start c .ping).course
        ⟨server, fun name => (behaviour name).map (·.farEnd capacity), patience⟩ gate) :=
  ⟨harmless_run c gate, fun _ htarget =>
    timely_course htarget gate server behaviour hroom hpatience⟩

/-- A worker that sends more than there is room for, so that its echo is lost, and echoes again when
the timeout has passed. No other timeout is set, and the caller waits longer. -/
theorem ping_harmless_late :
    let c : Coordinator := {
      client := ⟨none, 30000, none⟩, canSpawn := true, entryPoint := some "worker.js",
      responseTimeout := none, pingTimeout := 50, workerOptions := some (.obj []) }
    let script : Script := ⟨[.reply .unknown, .reply .unknown, .reply (.response .ping)],
      [.wait 30, .act (.reply (.response .start)), .wait 20, .act (.reply (.response .ping))]⟩
    let moves := (start c .ping).course
      ⟨.unreachable, fun _ => (Except.ok script).map (·.farEnd 2), 60⟩ ⟨"Stay here.", none⟩
    Harmless c ⟨"Stay here.", none⟩ moves ∧
    Timely c "worker.js" (.ok script) 2 ⟨"Stay here.", none⟩ moves ∧
    (start c .ping).endedAt? ⟨"Stay here.", none⟩ moves = some 50 := by
  intro c script moves
  have hended : (start c .ping).endedAt? ⟨"Stay here.", none⟩ moves = some 50 := by
    decide +kernel
  obtain ⟨hharmless, htimely⟩ := ping_harmless c ⟨"Stay here.", none⟩ .unreachable
    (fun _ => .ok script) 2 60 (by decide) (by decide)
  exact ⟨hharmless moves, htimely "worker.js" rfl, hended⟩

end Call

end Invigilation
