import Mathlib.Data.List.Induction
import Invigilation.Proofs.Coordinator.Sequence
import Invigilation.Proofs.Page.Calls
import Invigilation.Proofs.Session.Source

/-!
# Calls that do not disturb each other

Any number of calls may be under way on a page. Each reload of the page is owed to one call that has
returned with success, and that call has its own answer of the server behind it and, where a worker
is used, a response of its own worker. No call is touched by what the server and the workers of the
others do, and no worker outlives the session of its call.

- `Call.received_run`, `Call.answered_run`: the response and the answer that a call goes by came to
  it and to no other.
- `Call.hasActed`, `Call.holdsWorker`: calls that returned with success, and calls in a session.
- `Page.Earned`: what a call has behind it when it reloads the page.
- `Page.Isolated`, `Page.isolated_run`: **calls do not disturb each other**, in whatever order they
  take turns.
-/

namespace Invigilation

namespace Coordinator

/-- Whether a stage is a session. -/
def Stage.isSession : Stage → Bool
  | .session _ _ => true
  | .detach | .update _ _ | .reload => false

/-- Every task has at most one session. -/
theorem plan_one_session (c : Coordinator) (t : Task) :
    (c.plan t).countP Stage.isSession ≤ 1 := by
  have hsessions : ∀ p timeout, (c.sessions p timeout).countP Stage.isSession ≤ 1 := by
    intro p timeout
    unfold sessions
    cases c.target? <;> simp [Stage.isSession]
  match t with
  | .act .start url => simp [plan, Stage.isSession, hsessions]
  | .act .submit url => simp [plan, Stage.isSession, hsessions]
  | .ping => exact hsessions .ping _

end Coordinator

namespace Call

open Coordinator (Stage Task trace)

/-! ## Responses -/

/-- The replies that come into a call with a move. -/
def Move.offers : Move → List WorkerMessage
  | .session m => m.offers
  | .proceed | .reply _ | .abandon _ => []

/-- Every reply that is queued for the call is one of those on offer. -/
def Phase.Sourced (offered : WorkerMessage → Prop) : Phase → Prop
  | .inSession s _ => s.phase.Sourced offered
  | .working _ | .inRequest _ _ _ | .over _ => True

variable {c : Coordinator} {t : Task} {call : Call} {offered : WorkerMessage → Prop}

theorem sourced_continuing (c : Coordinator) (t : Task) (stages : List Stage) :
    (continuing c t stages).Sourced offered := by
  cases stages <;> trivial

theorem sourced_afterSession {s : Session} (h : s.phase.Sourced offered) (rest : List Stage) :
    (call.afterSession s rest).Sourced offered := by
  unfold afterSession
  split
  · exact h
  · exact sourced_continuing _ _ _
  · trivial
  · trivial

/-- The beginning of a stage brings no reply, and shows no response. -/
theorem sourced_begin (call : Call) (gate : Gate) (rest : List Stage) (stage : Stage) :
    (call.begin gate rest stage).1.Sourced offered ∧
      ∀ type, .session (.matched type) ∉ (call.begin gate rest stage).2.2 := by
  cases stage with
  | detach | reload => exact ⟨sourced_continuing _ _ _, by simp [begin]⟩
  | session r entryPoint => exact ⟨trivial, by simp [begin]⟩
  | update a url =>
    simp only [begin]
    cases call.coordinator.client.updateRequest url a with
    | ok request => exact ⟨trivial, by simp⟩
    | error e => exact ⟨trivial, by simp⟩

/-- A move of the session in hand brings the replies of that session. -/
theorem sourced_session {s : Session} (h : s.phase.Sourced offered) (rest : List Stage)
    (m : Session.Move) (hm : ∀ reply ∈ m.offers, offered reply) :
    (call.afterSession (s.step m).1 rest).Sourced offered ∧
      ∀ type, .session (.matched type) ∈ (s.step m).2.map Event.session →
        ∃ reply, reply.messageType? = some type ∧ offered reply := by
  obtain ⟨hsourced, hmatched⟩ := h.step s.request s.entryPoint m hm
  refine ⟨sourced_afterSession (s := (s.step m).1) hsourced rest, fun type hseen => ?_⟩
  obtain ⟨event, hevent, heq⟩ := List.mem_map.mp hseen
  cases heq
  exact hmatched type hevent

theorem Phase.Sourced.step (h : call.phase.Sourced offered) (gate : Gate) (m : Move)
    (hm : ∀ s rest, call.phase = .inSession s rest → ∀ reply ∈ m.offers, offered reply) :
    (call.step gate m).1.phase.Sourced offered ∧
      ∀ type, .session (.matched type) ∈ (call.step gate m).2.2 →
        ∃ reply, reply.messageType? = some type ∧ offered reply := by
  obtain ⟨coordinator, task, phase⟩ := call
  cases phase with
  | «over» result => cases m <;> exact ⟨trivial, by simp [step, stepPhase]⟩
  | working stages =>
    cases stages with
    | nil => cases m <;> exact ⟨trivial, by simp [step, stepPhase]⟩
    | cons stage rest =>
      cases m with
      | proceed =>
        obtain ⟨hsourced, hnone⟩ :=
          sourced_begin ⟨coordinator, task, .working (stage :: rest)⟩ gate rest stage
        exact ⟨hsourced, fun type hmatched => absurd hmatched (hnone type)⟩
      | session | reply | abandon => exact ⟨trivial, by simp [step, stepPhase]⟩
  | inSession s rest =>
    cases m with
    | session m => exact sourced_session h rest m (hm s rest rfl)
    | abandon now => exact sourced_session h rest (.abandon now) (by simp [Session.Move.offers])
    | proceed | reply => exact ⟨h, by simp [step, stepPhase]⟩
  | inRequest a url rest =>
    cases m with
    | proceed | session | abandon => exact ⟨trivial, by simp [step, stepPhase]⟩
    | reply reply =>
      simp only [step, stepPhase]
      cases Client.concludeUpdate url reply with
      | ok => exact ⟨sourced_continuing _ _ _, by simp⟩
      | error e => exact ⟨trivial, by simp⟩

/-- Only a report that has no answer yet is answered with success. -/
theorem inRequest_of_updated {gate : Gate} {m : Move} {a : Action}
    (h : .updated a ∈ (call.step gate m).2.2) :
    ∃ url rest, call.phase = .inRequest a url rest := by
  obtain ⟨status, body, rfl, -⟩ := updated_step h
  obtain ⟨coordinator, task, phase⟩ := call
  cases phase with
  | «over» result => cases h
  | inSession s rest => cases h
  | working stages => cases stages <;> cases h
  | inRequest b url rest =>
    simp only [step, stepPhase] at h
    split at h
    · cases List.mem_singleton.mp h
      exact ⟨url, rest, rfl⟩
    · cases h

/-- A reply that came into a call with a move that it made in its session. -/
def Received (call : Call) (gate : Gate) (moves : List Move) (reply : WorkerMessage) : Prop :=
  ∃ earlier m later s rest, moves = earlier ++ m :: later ∧ reply ∈ m.offers ∧
    (call.run gate earlier).1.phase = .inSession s rest

/-- A success of the server that came while the report of an action to a URL had no answer yet. -/
def Answered (call : Call) (gate : Gate) (moves : List Move) (a : Action) (url : String) : Prop :=
  ∃ earlier status body later rest,
    moves = earlier ++ .reply (.answer status body) :: later ∧ Http.isSuccess status = true ∧
      (call.run gate earlier).1.phase = .inRequest a url rest

/-- A response that a call takes for its own was received in its session. -/
theorem received_run {gate : Gate} {moves : List Move} {type : MessageType}
    (h : .session (.matched type) ∈ ((start c t).run gate moves).2.2) :
    ∃ reply, reply.messageType? = some type ∧ (start c t).Received gate moves reply := by
  -- what is queued for the call after a part of its moves was received in the course of all
  have hrun : ∀ earlier later, moves = earlier ++ later →
      ((start c t).run gate earlier).1.phase.Sourced ((start c t).Received gate moves) ∧
      ∀ type, .session (.matched type) ∈ ((start c t).run gate earlier).2.2 →
        ∃ reply, reply.messageType? = some type ∧ (start c t).Received gate moves reply := by
    intro earlier
    induction earlier using List.reverseRecOn with
    | nil => exact fun _ _ => ⟨sourced_continuing _ _ _, (fun _ hseen => nomatch hseen)⟩
    | append_singleton earlier m ih =>
      intro later heq
      rw [List.append_assoc] at heq
      obtain ⟨hsourced, hbefore⟩ := ih (m :: later) heq
      obtain ⟨hstep, hnow⟩ := hsourced.step ((start c t).run gate earlier).2.1 m
        fun s rest hphase reply hreply => ⟨earlier, m, later, s, rest, heq, hreply, hphase⟩
      rw [run_concat]
      refine ⟨hstep, fun type hseen => ?_⟩
      rcases List.mem_append.mp hseen with hold | hnew
      · exact hbefore type hold
      · exact hnow type hnew
  exact (hrun moves [] (List.append_nil moves).symm).2 type h

/-- An action that was reported with success was answered so. -/
theorem answered_run {gate : Gate} {moves : List Move} {a : Action}
    (h : .updated a ∈ (call.run gate moves).2.2) : ∃ url, call.Answered gate moves a url := by
  induction moves using List.reverseRecOn with
  | nil => exact nomatch h
  | append_singleton earlier m ih =>
    rw [run_concat] at h
    rcases List.mem_append.mp h with hold | hnew
    · obtain ⟨url, first, status, body, later, rest, heq, hsuccess, hphase⟩ := ih hold
      refine ⟨url, first, status, body, later ++ [m], rest, ?_, hsuccess, hphase⟩
      rw [heq, List.append_assoc, List.cons_append]
    · obtain ⟨status, body, rfl, hsuccess⟩ := updated_step hnew
      obtain ⟨url, rest, hphase⟩ := inRequest_of_updated hnew
      exact ⟨url, earlier, status, body, [], rest, rfl, hsuccess, hphase⟩

/-! ## Reloads -/

/-- Whether a result is the success of an action. -/
def Result.isActed : Result → Bool
  | .acted _ _ => true
  | .pinged _ | .failed _ | .abandoned => false

/-- Whether the call has returned with the success of an action. -/
def hasActed (call : Call) : Bool :=
  call.result?.any Result.isActed

theorem hasActed_iff : call.hasActed = true ↔ ∃ a used, call.phase = .over (.acted a used) := by
  obtain ⟨coordinator, task, phase⟩ := call
  cases phase with
  | «over» result => cases result <;> simp [hasActed, result?, Result.isActed]
  | working | inSession | inRequest => simp [hasActed, result?]

variable {phase : Phase} {events : List Event}

/-- The sequence of an action has one reload, its last event. -/
theorem sequence_eq_concat (c : Coordinator) (request : Http.Request) (attached : Bool)
    (a : Action) :
    ∃ before, c.sequence request attached a = before ++ [.reloaded] ∧ .reloaded ∉ before ∧
      .requested request attached ∈ before ∧ .updated a ∈ before ∧
      (c.usesWorker = true → .session (.matched a.prompt.responseType) ∈ before) := by
  have hnone : ∀ p, .reloaded ∉ c.handover p := by
    intro p
    unfold Coordinator.handover
    split <;> simp
  have hmatched : ∀ p : Prompt, c.usesWorker = true →
      .session (.matched p.responseType) ∈ c.handover p := by
    intro p huses
    unfold Coordinator.usesWorker Coordinator.target? at huses
    unfold Coordinator.handover
    cases hspawn : c.canSpawn with
    | false => simp [hspawn] at huses
    | true =>
      cases hentry : c.entryPoint with
      | none => simp [hspawn, hentry] at huses
      | some entryPoint => simp
  cases a with
  | start =>
    refine ⟨c.handover .start ++ [.requested request attached, .updated .start], ?_, ?_, ?_, ?_, ?_⟩
    · simp [Coordinator.sequence]
    · simp [hnone]
    · simp
    · simp
    · exact fun huses => List.mem_append_left _ (hmatched .start huses)
  | submit =>
    refine ⟨[.detached, .requested request attached, .updated .submit] ++ c.handover .finish,
      rfl, ?_, ?_, ?_, ?_⟩
    · simp [hnone]
    · simp
    · simp
    · exact fun huses => List.mem_append_right _ (hmatched .finish huses)

/-- A ping never reloads the page, and carries out no action. -/
theorem Journey.ping (journey : Journey c .ping phase events) :
    .reloaded ∉ events ∧ ∀ a used, phase ≠ .over (.acted a used) := by
  have hdone : ∀ {done rest : List Stage} {request : Http.Request} {attached : Bool},
      c.plan .ping = done ++ rest → .reloaded ∉ trace request attached done := by
    intro done rest request attached plan hmem
    obtain ⟨stage, hstage, hseen⟩ := List.mem_flatMap.mp hmem
    have hplan : stage ∈ c.sessions .ping (some c.pingTimeout) := by
      show stage ∈ c.plan .ping
      rw [plan]
      exact List.mem_append_left rest hstage
    obtain ⟨entryPoint, -, rfl⟩ := List.mem_map.mp hplan
    simp [Stage.trace] at hseen
  have hsession : ∀ seen : List Session.Event, .reloaded ∉ seen.map Event.session := by
    intro seen
    simp
  cases journey with
  | working attached plan sent unfinished => exact ⟨hdone plan, by simp⟩
  | inSession attached plan sent life still => exact ⟨by simp [hdone plan, hsession], by simp⟩
  | inRequest attached plan sent => exact ⟨by simp [hdone plan], by simp⟩
  | complete attached sent => exact ⟨hdone (List.append_nil _).symm, by simp [success]⟩
  | stopped attached plan sent unfinished broken =>
    exact ⟨hdone plan, by cases broken <;> simp⟩
  | unanswered attached plan sent life ended unanswered broken =>
    exact ⟨by simp [hdone plan, hsession], by cases broken <;> simp⟩
  | unreported attached plan sent broken =>
    exact ⟨by simp [hdone plan], by cases broken <;> simp⟩

/-- A call has reloaded the page once if it has carried out its action, and else never. -/
theorem Journey.count_reloaded (journey : Journey c t phase events) :
    events.count .reloaded = if hasActed ⟨c, t, phase⟩ then 1 else 0 := by
  by_cases hacted : hasActed ⟨c, t, phase⟩ = true
  · rw [if_pos hacted]
    obtain ⟨b, used, rfl⟩ := hasActed_iff.mp hacted
    cases t with
    | ping => exact absurd rfl (journey.ping.2 b used)
    | act a url =>
      obtain ⟨request, attached, rfl⟩ := journey.eq_sequence
      obtain ⟨before, heq, hnone, -⟩ := sequence_eq_concat c request attached a
      rw [heq, List.count_append, List.count_eq_zero.mpr hnone]
      rfl
  · rw [if_neg hacted, List.count_eq_zero]
    intro hmem
    cases t with
    | ping => exact journey.ping.1 hmem
    | act a url => exact hacted (hasActed_iff.mpr ⟨a, _, journey.reloaded_iff.mp hmem⟩)

/-! ## Workers -/

/-- Whether a call in this phase is in a session that has a worker. -/
def Phase.holdsWorker : Phase → Bool
  | .inSession s _ => s.port?.isSome
  | .working _ | .inRequest _ _ _ | .over _ => false

/-- The opening of a session is the spawning of one worker. -/
theorem spawns_opened (entryPoint : String) (sent : List HostMessage)
    (last : List Session.Event) (h : ∀ e ∈ last, Event.isSpawn (.session e) = false) :
    ((Session.opened entryPoint sent ++ last).map Event.session).countP Event.isSpawn = 1 := by
  have hsent : (sent.map Session.Event.handed).countP (Event.isSpawn ∘ Event.session) = 0 := by
    simp [List.countP_eq_zero, Event.isSpawn]
  have hlast : last.countP (Event.isSpawn ∘ Event.session) = 0 :=
    List.countP_eq_zero.mpr fun e he => Bool.eq_false_iff.mp (h e he)
  rw [List.countP_map, List.countP_append, Session.opened, List.countP_cons, hsent, hlast]
  rfl

/-- A session spawns at most one worker. -/
theorem spawns_of_life {r : RoundTrip} {entryPoint : String} {phase : Session.Phase}
    {seen : List Session.Event} (life : Session.Life r entryPoint phase seen) :
    (seen.map Event.session).countP Event.isSpawn ≤ 1 := by
  cases life with
  | unopened | unwanted | invalid | unspawned => exact Nat.zero_le 1
  | posting h live | awaiting deadline h live =>
    rw [← List.append_nil (Session.opened entryPoint _)]
    exact Nat.le_of_eq (spawns_opened entryPoint _ _ (by simp))
  | answered now h spent | unanswered now h why spent =>
    exact Nat.le_of_eq (spawns_opened entryPoint _ _ (by simp [Event.isSpawn]))

/-- A session that is not over has one worker that is not ended, or none at all. -/
theorem unended_of_life {s : Session} {seen : List Session.Event}
    (life : Session.Life s.request s.entryPoint s.phase seen) (still : s.result? = none) :
    (seen.map Event.session).countP Event.isSpawn =
      (seen.map Event.session).count (.session .terminated) +
        (if s.port?.isSome then 1 else 0) := by
  have hopened : ∀ sent : List HostMessage,
      ((Session.opened s.entryPoint sent).map Event.session).countP Event.isSpawn =
        ((Session.opened s.entryPoint sent).map Event.session).count (.session .terminated) +
          1 := by
    intro sent
    have hspawns := spawns_opened s.entryPoint sent [] (by simp)
    rw [List.append_nil] at hspawns
    have hends : ((Session.opened s.entryPoint sent).map Event.session).count
        (.session .terminated) = 0 := by
      simp [List.count_eq_zero, Session.opened]
    rw [hspawns, hends]
  obtain ⟨r, entryPoint, phase⟩ := s
  cases life with
  | unopened => rfl
  | posting h live => exact hopened _
  | awaiting deadline h live => exact hopened _
  | unwanted | invalid | unspawned | answered | unanswered => cases still

/-- Stages that succeed spawn no more workers than there are sessions among them. -/
theorem spawns_trace_le (request : Http.Request) (attached : Bool) (stages : List Stage) :
    (trace request attached stages).countP Event.isSpawn ≤ stages.countP Stage.isSession := by
  have hdialogue : ∀ r entryPoint,
      ((Session.dialogue r entryPoint).map Event.session).countP Event.isSpawn ≤ 1 := by
    intro r entryPoint
    cases h : r.messages with
    | error e => simp [Session.dialogue, h]
    | ok messages =>
      rw [Session.dialogue_eq h]
      exact spawns_of_life (.answered 0 h (Port.live_ofLink (.fresh 0)).drop)
  induction stages with
  | nil => exact Nat.le_refl 0
  | cons stage rest ih =>
    show (stage.trace request attached ++ trace request attached rest).countP Event.isSpawn ≤ _
    rw [List.countP_append, List.countP_cons]
    have hstage : (stage.trace request attached).countP Event.isSpawn ≤
        if stage.isSession then 1 else 0 := by
      cases stage with
      | detach | update | reload => exact Nat.le_refl 0
      | session r entryPoint => exact hdialogue r entryPoint
    omega

/-- What a call has spawned has been ended, unless it is in the session that has the worker. -/
theorem Journey.unended (journey : Journey c t phase events) :
    events.countP Event.isSpawn =
      events.count (.session .terminated) + (if phase.holdsWorker then 1 else 0) := by
  cases journey with
  | working | complete | stopped => exact balanced_trace _ _ _
  | inRequest | unreported => exact (balanced_trace _ _ _).append rfl
  | @inSession done rest request attached s seen plan sent life still =>
    rw [List.countP_append, List.count_append, unended_of_life life still, Nat.add_assoc,
      balanced_trace request attached done]
    rfl
  | unanswered attached plan sent life ended unanswered broken =>
    obtain ⟨port, hphase⟩ := Session.phase_of_result? ended
    rw [hphase] at life
    exact (balanced_trace _ _ _).append (balanced_of_life life)

/-- A call spawns at most one worker. -/
theorem Journey.spawns_le (journey : Journey c t phase events) :
    events.countP Event.isSpawn ≤ 1 := by
  have honce := Coordinator.plan_one_session c t
  -- what was spawned in the stages that were left behind
  have hdone : ∀ (request : Http.Request) (attached : Bool) {done rest : List Stage},
      c.plan t = done ++ rest →
      (trace request attached done).countP Event.isSpawn + rest.countP Stage.isSession ≤ 1 := by
    intro request attached done rest plan
    have hle := spawns_trace_le request attached done
    rw [plan, List.countP_append] at honce
    omega
  -- the session in hand is the only one of the plan
  have hinHand : ∀ {done rest : List Stage} {request : Http.Request} {attached : Bool}
      {s : Session} {seen : List Session.Event},
      c.plan t = done ++ .session s.request s.entryPoint :: rest →
      Session.Life s.request s.entryPoint s.phase seen →
      (trace request attached done ++ seen.map Event.session).countP Event.isSpawn ≤ 1 := by
    intro done rest request attached s seen plan life
    have hzero := hdone request attached plan
    have hone := spawns_of_life life
    rw [List.countP_cons_of_pos rfl] at hzero
    rw [List.countP_append]
    omega
  have hreport : ∀ {done rest : List Stage} {request : Http.Request} {attached : Bool},
      c.plan t = done ++ rest →
      (trace request attached done ++
        [Event.requested request attached]).countP Event.isSpawn ≤ 1 := by
    intro done rest request attached plan
    rw [List.countP_append]
    exact Nat.le_of_add_right_le (hdone _ _ plan)
  cases journey with
  | working attached plan sent unfinished => exact Nat.le_of_add_right_le (hdone _ _ plan)
  | complete attached sent =>
    exact Nat.le_of_add_right_le (hdone _ _ (List.append_nil _).symm)
  | stopped attached plan sent unfinished broken => exact Nat.le_of_add_right_le (hdone _ _ plan)
  | inSession attached plan sent life still => exact hinHand plan life
  | unanswered attached plan sent life ended unanswered broken => exact hinHand plan life
  | inRequest attached plan sent => exact hreport plan
  | unreported attached plan sent broken => exact hreport plan

/-- A call reports its action to the URL of its attempt. -/
theorem Journey.inRequest_url {a b : Action} {url target : String} {rest : List Stage}
    (journey : Journey c (.act a url) (.inRequest b target rest) events) :
    ∃ request, c.client.updateRequest url a = .ok request ∧ target = request.url := by
  cases journey with
  | @inRequest done rest request attached a' url' plan sent =>
    obtain ⟨init, hinit, -, honly⟩ := plan_act c a url
    have hmem : .update b url' ∈ init ++ [.reload] := by
      rw [← hinit, plan]
      exact List.mem_append_right _ List.mem_cons_self
    rcases List.mem_append.mp hmem with hreport | hreload
    · obtain ⟨rfl, rfl⟩ := honly b url' hreport
      exact ⟨request, sent, rfl⟩
    · cases List.mem_singleton.mp hreload

/-- A move that reloads the page shows nothing else. -/
theorem reload_step {gate : Gate} {m : Move} (h : .reloaded ∈ (call.step gate m).2.2) :
    (call.step gate m).2.2 = [.reloaded] := by
  obtain ⟨coordinator, task, phase⟩ := call
  cases phase with
  | «over» result => cases m <;> cases h
  | working stages =>
    cases stages with
    | nil => cases m <;> cases h
    | cons stage rest =>
      cases m with
      | session | reply | abandon => cases h
      | proceed =>
        cases stage with
        | reload => rfl
        | detach => cases List.mem_singleton.mp h
        | session => cases h
        | update a url =>
          simp only [step, stepPhase, begin] at h
          cases hrequest : coordinator.client.updateRequest url a <;> simp [hrequest] at h
  | inSession s rest =>
    cases m with
    | proceed | reply => cases h
    | session m | abandon now =>
      obtain ⟨event, -, heq⟩ := List.mem_map.mp h
      cases heq
  | inRequest a url rest =>
    cases m with
    | proceed | session | abandon => cases h
    | reply reply =>
      simp only [step, stepPhase] at h
      cases hreply : Client.concludeUpdate url reply <;> simp [hreply] at h

end Call

namespace Page

open Call (Received Answered)

variable {p : Page} {events : List (Nat × Call.Event)}

/-- What a call has behind it when it reloads the page: its report was sent and has been answered
with success, and if a worker is used then a response to its prompt has come from its worker. -/
structure Earned (c : Coordinator) (a : Action) (url : String) (gate : Gate)
    (own : List Call.Move) (seen : List Call.Event) : Prop where
  reported : ∃ request attached, c.client.updateRequest url a = .ok request ∧
    .requested request attached ∈ seen ∧ .updated a ∈ seen ∧
      (Call.start c (.act a url)).Answered gate own a request.url
  acknowledged : c.usesWorker = true →
    .session (.matched a.prompt.responseType) ∈ seen ∧
      ∃ reply, reply.messageType? = some a.prompt.responseType ∧
        (Call.start c (.act a url)).Received gate own reply

/-- What holds of a page and what was seen on it, when these moves were made. -/
structure Isolated (p : Page) (gate : Gate) (moves : List Move)
    (events : List (Nat × Call.Event)) : Prop where
  /-- There were as many reloads as there are actions that returned with success. -/
  reloads : p.reloads = p.calls.countP Call.hasActed
  /-- The next reload is earned by the call that it is owed to, which returns with it. -/
  earned : ∀ place m, (place, .reloaded) ∈ (p.step m).2 →
    ∃ c a url phase, p.calls[place]? = some ⟨c, .act a url, phase⟩ ∧
      Earned c a url gate (own place 0 moves) (seen place events) ∧
      (p.step m).1.calls[place]? = some ⟨c, .act a url, .over (.acted a c.usesWorker)⟩
  /-- A call is what its own moves have made of it, and has shown what they show. -/
  alone : ∀ place, Alone place gate (own place 0 moves) p events
  /-- The workers that are not ended are those of the calls in their sessions. -/
  attended : ∀ place c, p.calls[place]? = some c →
    (seen place events).countP Call.Event.isSpawn =
      (seen place events).count (.session .terminated) + if c.phase.holdsWorker then 1 else 0
  once : ∀ place, (seen place events).countP Call.Event.isSpawn ≤ 1

/-- Every move counts as many reloads as it lets actions return with success. -/
theorem Underway.reloads_step (h : Underway p events)
    (hreloads : p.reloads = p.calls.countP Call.hasActed) (m : Move) :
    (p.step m).1.reloads = (p.step m).1.calls.countP Call.hasActed := by
  cases m with
  | evaluate s | detach => exact hreloads
  | begin coordinator task =>
    have hstart : (Call.start coordinator task).hasActed = false := by
      have hcount : 0 = if (Call.start coordinator task).hasActed then 1 else 0 :=
        (Call.journey_start coordinator task).count_reloaded
      cases hacted : (Call.start coordinator task).hasActed with
      | false => rfl
      | true =>
        rw [if_pos hacted] at hcount
        cases hcount
    show p.reloads = (p.calls ++ [Call.start coordinator task]).countP Call.hasActed
    rw [List.countP_append, List.countP_singleton, hstart, hreloads]
    rfl
  | call place cm =>
    cases hcall : p.calls[place]? with
    | none =>
      rw [step_call_none hcall]
      exact hreloads
    | some c =>
      obtain ⟨hlt, hget⟩ := List.getElem?_eq_some_iff.mp hcall
      have hbefore : (seen place events).count .reloaded = if c.hasActed then 1 else 0 :=
        (h.journey place c hcall).count_reloaded
      have hafter : (seen place events ++ (c.step p.gate cm).2.2).count .reloaded =
          if (c.step p.gate cm).1.hasActed then 1 else 0 :=
        ((h.journey place c hcall).step p.gate cm).count_reloaded
      rw [List.count_append, hbefore] at hafter
      have hmem : (if c.hasActed then 1 else 0) ≤ p.calls.countP Call.hasActed := by
        split
        · next hacted => exact List.countP_pos_iff.mpr ⟨c, List.mem_of_getElem? hcall, hacted⟩
        · exact Nat.zero_le _
      rw [step_call hcall]
      show p.reloads + countReloads (c.step p.gate cm).2.2 =
        (p.calls.set place (c.step p.gate cm).1).countP Call.hasActed
      rw [List.countP_set hlt, hget, hreloads]
      have hcount : countReloads (c.step p.gate cm).2.2 =
          (c.step p.gate cm).2.2.count .reloaded := rfl
      omega

theorem reloads_run (gate : Gate) (moves : List Move) :
    ((fresh gate).run moves).1.reloads =
      ((fresh gate).run moves).1.calls.countP Call.hasActed := by
  have hrun : ∀ (p : Page) (events : List (Nat × Call.Event)), Underway p events →
      p.reloads = p.calls.countP Call.hasActed →
      (p.run moves).1.reloads = (p.run moves).1.calls.countP Call.hasActed := by
    induction moves with
    | nil => exact fun _ _ _ hreloads => hreloads
    | cons m rest ih =>
      intro p events h hreloads
      exact ih (p.step m).1 _ (h.step m) (h.reloads_step hreloads m)
  exact hrun (fresh gate) [] (underway_fresh gate) rfl

/-- What is seen of a call is seen of it alone, but for the mark of a request. -/
theorem Alone.mem {place : Nat} {gate : Gate} {done : List Call.Move} {c : Call}
    (halone : Alone place gate done p events) (hc : p.calls[place]? = some c) {e : Call.Event}
    (hplain : ∀ request attached, e ≠ .requested request attached)
    (he : e ∈ seen place events) :
    e ∈ ((Call.start c.coordinator c.task).run gate done).2.2 := by
  have hmap : e.unmarked ∈
      ((Call.start c.coordinator c.task).run gate done).2.2.map Call.Event.unmarked := by
    rw [← halone.shows c hc]
    exact List.mem_map_of_mem he
  obtain ⟨e', he', heq⟩ := List.mem_map.mp hmap
  rwa [Call.Event.eq_of_unmarked hplain heq] at he'

/-- A call that reloads the page ends the sequence of its action with that, and returns. -/
theorem Underway.reload (h : Underway p events) {place : Nat} {m : Move}
    (hreload : (place, .reloaded) ∈ (p.step m).2) :
    ∃ c a url phase, p.calls[place]? = some ⟨c, .act a url, phase⟩ ∧
      (∃ request attached, seen place events ++ [.reloaded] = c.sequence request attached a) ∧
      (p.step m).1.calls[place]? = some ⟨c, .act a url, .over (.acted a c.usesWorker)⟩ := by
  cases m with
  | evaluate | detach | begin => cases hreload
  | call other cm =>
    cases hcall : p.calls[other]? with
    | none =>
      rw [step_call_none hcall] at hreload
      cases hreload
    | some call =>
      obtain ⟨hlt, -⟩ := List.getElem?_eq_some_iff.mp hcall
      rw [step_call hcall] at hreload ⊢
      obtain ⟨e, hmem, heq⟩ := List.mem_map.mp hreload
      cases heq
      have hafter := (h.journey place call hcall).step p.gate cm
      rw [Call.reload_step hmem] at hafter
      obtain ⟨c, task, phase⟩ := call
      cases task with
      | ping => exact absurd List.mem_concat_self hafter.ping.1
      | act a url =>
        have hphase := hafter.reloaded_iff.mp List.mem_concat_self
        rw [hphase] at hafter
        refine ⟨c, a, url, phase, hcall, hafter.eq_sequence, ?_⟩
        rw [List.getElem?_set_self hlt, ← hphase]
        rfl

/-- The reload of a call is earned. -/
theorem Alone.earned {place : Nat} {gate : Gate} {done : List Call.Move}
    (halone : Alone place gate done p events) (h : Underway p events) {m : Move}
    (hreload : (place, .reloaded) ∈ (p.step m).2) :
    ∃ c a url phase, p.calls[place]? = some ⟨c, .act a url, phase⟩ ∧
      Earned c a url gate done (seen place events) ∧
      (p.step m).1.calls[place]? = some ⟨c, .act a url, .over (.acted a c.usesWorker)⟩ := by
  obtain ⟨c, a, url, phase, hcall, ⟨request, attached, heq⟩, hreturned⟩ := h.reload hreload
  -- what was seen before is the sequence of the action up to its last event
  obtain ⟨before, hsequence, -, hrequested, hupdated, hmatched⟩ :=
    Call.sequence_eq_concat c request attached a
  rw [hsequence] at heq
  obtain ⟨rfl, -⟩ := List.append_inj' heq rfl
  refine ⟨c, a, url, phase, hcall, ⟨?_, fun huses => ?_⟩, hreturned⟩
  · have hsent := (h.journey place _ hcall).requested hrequested
    obtain ⟨target, earlier, status, body, later, rest, hmoves, hsuccess, hphase⟩ :=
      Call.answered_run (halone.mem hcall nofun hupdated)
    have hlone := Call.journey_run c (.act a url) gate earlier
    rw [hphase] at hlone
    obtain ⟨request', hsent', rfl⟩ := hlone.inRequest_url
    rw [hsent] at hsent'
    cases hsent'
    exact ⟨request, attached, hsent, hrequested, hupdated,
      earlier, status, body, later, rest, hmoves, hsuccess, hphase⟩
  · exact ⟨hmatched huses, Call.received_run (halone.mem hcall nofun (hmatched huses))⟩

/-- **Calls do not disturb each other**, in whatever order they take turns with each other, with the
server, the workers and whoever else uses the gate. -/
theorem isolated_run (gate gate' : Gate) (moves : List Move) :
    Isolated ((fresh gate).run moves).1 gate' moves ((fresh gate).run moves).2 where
  reloads := reloads_run gate moves
  earned place m hreload :=
    (alone_run gate gate' moves place).earned (underway_run gate moves) hreload
  alone := alone_run gate gate' moves
  attended place c hc := ((underway_run gate moves).journey place c hc).unended
  once place := by
    have hunderway := underway_run gate moves
    cases hc : ((fresh gate).run moves).1.calls[place]? with
    | some c => exact (hunderway.journey place c hc).spawns_le
    | none =>
      rw [hunderway.unseen place (List.getElem?_eq_none_iff.mp hc)]
      exact Nat.zero_le 1

end Page

end Invigilation
