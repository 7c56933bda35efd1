import Invigilation.Proofs.Coordinator.Completion

/-!
# The journey of a call

Whatever happens to a call, what is seen of it is all that belongs to the stages it has left behind,
and then a beginning of what belongs to the stage in hand.

- `Coordinator.trace`: what is seen of stages that succeed.
- `Call.Journey`: the events that belong to each phase.
- `Call.Journey.step`, `Call.Journey.run`: **every move keeps to it**, whatever the gate is at the
  time.
-/

namespace Invigilation

/-- What is seen of a session that is answered. -/
def Session.dialogue (r : RoundTrip) (entryPoint : String) : List Session.Event :=
  match r.messages with
  | .ok messages => opened entryPoint messages ++ [.matched r.exchange.response, .terminated]
  | .error _ => []

theorem Session.dialogue_eq {r : RoundTrip} {messages : List HostMessage}
    (h : r.messages = .ok messages) (entryPoint : String) :
    dialogue r entryPoint =
      opened entryPoint messages ++ [.matched r.exchange.response, .terminated] := by
  unfold dialogue
  rw [h]

/-- A session that was answered has shown its whole dialogue. -/
theorem Session.Life.eq_dialogue {r : RoundTrip} {entryPoint : String} {port : Option Port}
    {time : Nat} {events : List Session.Event}
    (life : Session.Life r entryPoint (.over port time .answered) events) :
    events = Session.dialogue r entryPoint := by
  cases life with
  | answered now h spent => exact (Session.dialogue_eq h entryPoint).symm
  | unanswered now h why spent => cases why

namespace Coordinator

/-! ## What is seen of stages that succeed -/

/-- What is seen of a stage that succeeds, if the request of an update is this one. -/
def Stage.trace (request : Http.Request) (attached : Bool) : Stage → List Call.Event
  | .detach => [.detached]
  | .session r entryPoint => (Session.dialogue r entryPoint).map .session
  | .update a _ => [.requested request attached, .updated a]
  | .reload => [.reloaded]

/-- What is seen of stages that succeed one after the other. -/
def trace (request : Http.Request) (attached : Bool) (stages : List Stage) : List Call.Event :=
  stages.flatMap (Stage.trace request attached)

/-- Whether a stage reports an action. -/
def Stage.isUpdate : Stage → Bool
  | .update _ _ => true
  | _ => false

variable {c : Coordinator} {t : Task} {stages rest : List Stage} {request : Http.Request}
  {attached : Bool}

theorem trace_append : trace request attached (stages ++ rest) =
    trace request attached stages ++ trace request attached rest :=
  List.flatMap_append

theorem trace_snoc (stage : Stage) : trace request attached (stages ++ [stage]) =
    trace request attached stages ++ stage.trace request attached := by
  rw [trace_append]
  show _ ++ [stage].flatMap _ = _
  rw [List.flatMap_singleton]

/-- Stages that report nothing show the same for every request. -/
theorem trace_of_no_update (h : ∀ stage ∈ stages, stage.isUpdate = false)
    (request' : Http.Request) (attached' : Bool) :
    trace request attached stages = trace request' attached' stages := by
  induction stages with
  | nil => rfl
  | cons stage rest ih =>
    have hrest := ih fun stage hstage => h stage (List.mem_cons_of_mem _ hstage)
    have hstage : stage.trace request attached = stage.trace request' attached' := by
      have hother := h stage List.mem_cons_self
      cases stage with
      | update a url => cases hother
      | detach | session | reload => rfl
    show stage.trace request attached ++ trace request attached rest =
      stage.trace request' attached' ++ trace request' attached' rest
    rw [hstage, hrest]

/-- Every task reports at most once. -/
theorem plan_reports_once (c : Coordinator) (t : Task) :
    (c.plan t).countP Stage.isUpdate ≤ 1 := by
  have hsessions : ∀ p timeout, (c.sessions p timeout).countP Stage.isUpdate = 0 := by
    intro p timeout
    unfold sessions
    cases c.target? <;> rfl
  match t with
  | .act .start url | .act .submit url =>
    simp [plan, hsessions, List.countP_cons, Stage.isUpdate]
  | .ping => simp [plan, hsessions]

theorem no_update_before {a : Action} {url : String}
    (hplan : c.plan t = stages ++ .update a url :: rest) :
    ∀ stage ∈ stages, stage.isUpdate = false := by
  have honce := plan_reports_once c t
  rw [hplan, List.countP_append, List.countP_cons_of_pos rfl] at honce
  have hnone : stages.countP Stage.isUpdate = 0 := by omega
  intro stage hstage
  exact Bool.eq_false_iff.mpr (List.countP_eq_zero.mp hnone stage hstage)

end Coordinator

namespace Call

open Coordinator (Stage Task trace)

/-! ## The events that belong to a phase -/

/-- The results of calls that do not reach the end of their plan. -/
inductive Result.Broken : Result → Prop where
  | failed (e : CallError) : Broken (.failed e)
  | abandoned : Broken .abandoned

/-- Every report among stages was sent in this request. -/
def Sent (c : Coordinator) (request : Http.Request) (stages : List Stage) : Prop :=
  ∀ a url, .update a url ∈ stages → c.client.updateRequest url a = .ok request

/-- The phases a call can be in when it has shown certain events. -/
inductive Journey (c : Coordinator) (t : Task) : Phase → List Event → Prop where
  | working {done stages : List Stage} {request : Http.Request} (attached : Bool)
      (plan : c.plan t = done ++ stages) (sent : Sent c request done)
      (unfinished : stages ≠ []) : Journey c t (.working stages) (trace request attached done)
  | inSession {done rest : List Stage} {request : Http.Request} (attached : Bool) {s : Session}
      {seen : List Session.Event}
      (plan : c.plan t = done ++ .session s.request s.entryPoint :: rest)
      (sent : Sent c request done) (life : Session.Life s.request s.entryPoint s.phase seen)
      (still : s.result? = none) :
      Journey c t (.inSession s rest) (trace request attached done ++ seen.map .session)
  | inRequest {done rest : List Stage} {request : Http.Request} (attached : Bool) {a : Action}
      {url : String} (plan : c.plan t = done ++ .update a url :: rest)
      (sent : c.client.updateRequest url a = .ok request) :
      Journey c t (.inRequest a request.url rest)
        (trace request attached done ++ [.requested request attached])
  | complete {request : Http.Request} (attached : Bool) (sent : Sent c request (c.plan t)) :
      Journey c t (.over (success c t)) (trace request attached (c.plan t))
  | stopped {done stages : List Stage} {request : Http.Request} (attached : Bool)
      {result : Result} (plan : c.plan t = done ++ stages) (sent : Sent c request done)
      (unfinished : stages ≠ []) (broken : result.Broken) :
      Journey c t (.over result) (trace request attached done)
  | unanswered {done rest : List Stage} {request : Http.Request} (attached : Bool) {s : Session}
      {seen : List Session.Event} {result : Result} {time : Nat} {outcome : Session.Outcome}
      (plan : c.plan t = done ++ .session s.request s.entryPoint :: rest)
      (sent : Sent c request done) (life : Session.Life s.request s.entryPoint s.phase seen)
      (ended : s.result? = some (time, outcome)) (unanswered : outcome ≠ .answered)
      (broken : result.Broken) :
      Journey c t (.over result) (trace request attached done ++ seen.map .session)
  | unreported {done rest : List Stage} {request : Http.Request} (attached : Bool) {a : Action}
      {url : String} {result : Result} (plan : c.plan t = done ++ .update a url :: rest)
      (sent : c.client.updateRequest url a = .ok request) (broken : result.Broken) :
      Journey c t (.over result)
        (trace request attached done ++ [.requested request attached])

/-! ## Every move keeps to it -/

variable {c : Coordinator} {t : Task} {call : Call} {gate : Gate} {done rest : List Stage}
  {request : Http.Request} {attached : Bool}

theorem Sent.snoc {stage : Stage} (sent : Sent c request done) (h : stage.isUpdate = false) :
    Sent c request (done ++ [stage]) := by
  intro a url hmem
  rcases List.mem_append.mp hmem with hdone | hstage
  · exact sent a url hdone
  · obtain rfl := List.mem_singleton.mp hstage
    cases h

/-- A call that leaves its first stages behind goes on with the others, or is complete. -/
theorem Journey.continuing {stages : List Stage} (attached : Bool)
    (plan : c.plan t = done ++ stages) (sent : Sent c request done) :
    Journey c t (continuing c t stages) (trace request attached done) := by
  cases stages with
  | nil =>
    rw [List.append_nil] at plan
    subst plan
    exact .complete attached sent
  | cons stage rest => exact .working attached plan sent (List.cons_ne_nil stage rest)

/-- A call that succeeds in a stage goes on with the next. -/
theorem Journey.next {stage : Stage} (attached : Bool) (plan : c.plan t = done ++ stage :: rest)
    (sent : Sent c request (done ++ [stage])) :
    Journey c t (Call.continuing c t rest)
      (trace request attached done ++ stage.trace request attached) := by
  rw [List.append_cons] at plan
  rw [← Coordinator.trace_snoc]
  exact .continuing attached plan sent

/-- The beginning of a stage keeps to the journey. -/
theorem Journey.begin {stage : Stage} (attached : Bool)
    (plan : call.coordinator.plan call.task = done ++ stage :: rest)
    (sent : Sent call.coordinator request done) (gate : Gate) :
    Journey call.coordinator call.task (call.begin gate rest stage).1
      (trace request attached done ++ (call.begin gate rest stage).2.2) := by
  cases stage with
  | detach | reload => exact .next attached plan (sent.snoc rfl)
  | session r entryPoint =>
    exact .inSession (s := ⟨r, entryPoint, .unopened⟩) attached plan sent .unopened rfl
  | update a url =>
    simp only [Call.begin]
    cases hrequest : call.coordinator.client.updateRequest url a with
    | error e =>
      dsimp only
      rw [List.append_nil]
      exact .stopped attached plan sent (List.cons_ne_nil _ rest) (.failed _)
    | ok request' =>
      -- what was seen so far is the same for the request that is made now
      rw [Coordinator.trace_of_no_update (Coordinator.no_update_before plan) request'
        gate.isAttached]
      exact .inRequest gate.isAttached plan hrequest

/-- A move of the session in hand keeps to the journey. -/
theorem Journey.session {s : Session} {seen : List Session.Event} (attached : Bool)
    (plan : call.coordinator.plan call.task = done ++ .session s.request s.entryPoint :: rest)
    (sent : Sent call.coordinator request done)
    (life : Session.Life s.request s.entryPoint s.phase seen) (m : Session.Move) :
    Journey call.coordinator call.task (call.afterSession (s.step m).1 rest)
      (trace request attached done ++ seen.map .session ++ (s.step m).2.map .session) := by
  have hlife : Session.Life (s.step m).1.request (s.step m).1.entryPoint (s.step m).1.phase
      (seen ++ (s.step m).2) := life.step m
  rw [List.append_assoc, ← List.map_append]
  unfold afterSession
  cases hresult : (s.step m).1.result? with
  | none => exact .inSession (s := (s.step m).1) attached plan sent hlife hresult
  | some result =>
    obtain ⟨time, outcome⟩ := result
    cases outcome with
    | answered =>
      have hdialogue : seen ++ (s.step m).2 = Session.dialogue s.request s.entryPoint := by
        obtain ⟨port, hphase⟩ := Session.phase_of_result? hresult
        rw [hphase] at hlife
        exact hlife.eq_dialogue
      rw [hdialogue]
      exact .next attached plan (sent.snoc rfl)
    | failed e =>
      exact .unanswered (s := (s.step m).1) attached plan sent hlife hresult nofun (.failed _)
    | abandoned =>
      exact .unanswered (s := (s.step m).1) attached plan sent hlife hresult nofun .abandoned

/-- The reply to the request in hand keeps to the journey. -/
theorem Journey.reply {a : Action} {url : String} (attached : Bool)
    (plan : call.coordinator.plan call.task = done ++ .update a url :: rest)
    (sent : call.coordinator.client.updateRequest url a = .ok request) (gate : Gate)
    (reply : Http.Reply) :
    Journey call.coordinator call.task
      (call.stepPhase gate (.inRequest a request.url rest) (.reply reply)).1
      (trace request attached done ++ [.requested request attached] ++
        (call.stepPhase gate (.inRequest a request.url rest) (.reply reply)).2.2) := by
  simp only [stepPhase]
  cases Client.concludeUpdate request.url reply with
  | error e =>
    dsimp only
    rw [List.append_nil]
    exact .unreported attached plan sent (.failed _)
  | ok =>
    have hsent : Sent call.coordinator request (done ++ [.update a url]) := by
      intro a' url' hmem
      rcases List.mem_append.mp hmem with hdone | hstage
      · cases Coordinator.no_update_before plan _ hdone
      · cases List.mem_singleton.mp hstage
        exact sent
    dsimp only
    rw [List.append_assoc]
    exact .next attached plan hsent

theorem Journey.stepPhase {phase : Phase} {events : List Event}
    (journey : Journey call.coordinator call.task phase events) (gate : Gate) (m : Move) :
    Journey call.coordinator call.task (call.stepPhase gate phase m).1
      (events ++ (call.stepPhase gate phase m).2.2) := by
  -- a move that shows nothing
  have quiet : ∀ {phase' : Phase}, Journey call.coordinator call.task phase' events →
      Journey call.coordinator call.task phase' (events ++ []) := by
    intro phase' h
    rw [List.append_nil]
    exact h
  cases journey with
  | @working done stages request attached plan sent unfinished =>
    cases stages with
    | nil => exact absurd rfl unfinished
    | cons stage rest =>
      cases m with
      | proceed => exact .begin attached plan sent gate
      | abandon now => exact quiet (.stopped attached plan sent unfinished .abandoned)
      | session | reply => exact quiet (.working attached plan sent unfinished)
  | inSession attached plan sent life still =>
    cases m with
    | session m => exact .session attached plan sent life m
    | abandon now => exact .session attached plan sent life (.abandon now)
    | proceed | reply => exact quiet (.inSession attached plan sent life still)
  | inRequest attached plan sent =>
    cases m with
    | reply reply => exact .reply attached plan sent gate reply
    | abandon now => exact quiet (.unreported attached plan sent .abandoned)
    | proceed | session => exact quiet (.inRequest attached plan sent)
  | complete attached sent => exact quiet (.complete attached sent)
  | stopped attached plan sent unfinished broken =>
    exact quiet (.stopped attached plan sent unfinished broken)
  | unanswered attached plan sent life ended unanswered broken =>
    exact quiet (.unanswered attached plan sent life ended unanswered broken)
  | unreported attached plan sent broken => exact quiet (.unreported attached plan sent broken)

/-- One move keeps to the journey of a call. -/
theorem Journey.step {events : List Event}
    (journey : Journey call.coordinator call.task call.phase events) (gate : Gate) (m : Move) :
    Journey call.coordinator call.task (call.step gate m).1.phase
      (events ++ (call.step gate m).2.2) :=
  journey.stepPhase gate m

/-- A run keeps to the journey of a call. -/
theorem Journey.run {events : List Event}
    (journey : Journey call.coordinator call.task call.phase events) (gate : Gate)
    (moves : List Move) :
    Journey call.coordinator call.task (call.run gate moves).1.phase
      (events ++ (call.run gate moves).2.2) := by
  induction moves generalizing call gate events with
  | nil =>
    rw [show (call.run gate []).2.2 = [] from rfl, List.append_nil]
    exact journey
  | cons m rest ih =>
    have hstep : Journey (call.step gate m).1.coordinator (call.step gate m).1.task
        (call.step gate m).1.phase (events ++ (call.step gate m).2.2) := journey.step gate m
    rw [run_cons, ← List.append_assoc]
    exact ih hstep (call.step gate m).2.1

/-- A call is on its journey from its start. -/
theorem journey_start (c : Coordinator) (t : Task) :
    Journey c t (start c t).phase [] := by
  have hplan : c.plan t = [] ++ c.plan t := rfl
  have hnone : Sent c ⟨.put, "", none, none⟩ [] := nofun
  exact .continuing false hplan hnone

/-- A call stays on its journey, whatever happens to it. -/
theorem journey_run (c : Coordinator) (t : Task) (gate : Gate) (moves : List Move) :
    Journey c t ((start c t).run gate moves).1.phase ((start c t).run gate moves).2.2 := by
  have hstart : Journey (start c t).coordinator (start c t).task (start c t).phase [] :=
    journey_start c t
  exact hstart.run gate moves

theorem result?_eq_some_iff {call : Call} {result : Result} :
    call.result? = some result ↔ call.phase = .over result := by
  unfold result?
  split
  · next h => simp [h]
  · next h =>
    constructor
    · exact nofun
    · intro hphase
      exact absurd hphase (h result)

end Call

end Invigilation
