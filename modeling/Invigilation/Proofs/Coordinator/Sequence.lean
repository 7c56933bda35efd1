import Invigilation.Proofs.Coordinator.Journey

/-!
# The sequence of an action

Each action has one sequence of events. A call for the action shows a first part of it: it goes on
as long as its steps succeed, and after one that does not it only ends the worker it has spawned.

- `Coordinator.sequence`: the sequence of each action.
- `Call.Cut`: the ways in which a sequence comes to an early end.
- `Call.run_sequence`: **a call keeps to its sequence**, whatever the server, the worker and the
  caller do.
-/

namespace Invigilation

namespace Coordinator

/-- What is seen of a prompt that a worker answers, if there is a worker to use. -/
def handover (c : Coordinator) (p : Prompt) : List Call.Event :=
  match c.canSpawn, c.entryPoint with
  | true, some entryPoint =>
    [.session (.spawned entryPoint true)] ++
      c.workerOptions.toList.map (fun options => .session (.handed (.config options))) ++
      [.session (.handed (.prompt p)), .session (.matched p.responseType), .session .terminated]
  | _, _ => []

/-- What is seen of an action that is carried out. A start arms the worker before it is reported,
and a submission is reported before the worker is told to stop. -/
def sequence (c : Coordinator) (request : Http.Request) (attached : Bool) :
    Action → List Call.Event
  | .start => c.handover .start ++ [.requested request attached, .updated .start, .reloaded]
  | .submit =>
    [.detached, .requested request attached, .updated .submit] ++ c.handover .finish ++ [.reloaded]

end Coordinator

/-- What a client puts together is what it was asked for. -/
theorem Client.request_ok {client : Client} {method : Http.Method} {url : String}
    {body : Option String} {request : Http.Request}
    (h : client.request method url body = .ok request) :
    request.method = method ∧ request.body = body ∧ client.resolve url = .ok request.url := by
  unfold Client.request at h
  cases hresolve : client.resolve url with
  | error e => simp [hresolve, bind, Except.bind] at h
  | ok resolved =>
    simp only [hresolve, bind, Except.bind] at h
    split at h
    · simp at h
    · split at h
      · simp at h
      · obtain rfl : Http.Request.mk method resolved client.csrfToken body = request := by
          simpa [pure, Except.pure] using h
        exact ⟨rfl, rfl, rfl⟩

/-- The body of a report names the action. -/
theorem Action.render_updateBody (a : Action) :
    a.updateBody.render = "\x7b\"action\":\"" ++ a.name ++ "\"\x7d" := by
  cases a <;> rfl

namespace Call

open Coordinator (Stage Task trace)

/-- The parts of a sequence of events that come to an end. -/
inductive Cut (sequence : List Event) : List Event → Prop where
  /-- Nothing else was seen. -/
  | here {events : List Event} (h : events <+: sequence) : Cut sequence events
  /-- A worker was asked for in vain. -/
  | unspawned {events : List Event} {entryPoint : String}
      (h : events ++ [.session (.spawned entryPoint true)] <+: sequence) :
      Cut sequence (events ++ [.session (.spawned entryPoint false)])
  /-- The worker that was spawned, and not ended yet, is ended. -/
  | ended {before during : List Event} {entryPoint : String}
      (h : before ++ .session (.spawned entryPoint true) :: during <+: sequence)
      (unended : .session .terminated ∉ during) :
      Cut sequence
        (before ++ .session (.spawned entryPoint true) :: during ++ [.session .terminated])

/-! ## Cuts -/

theorem prefix_append {before events sequence : List Event} (h : events <+: sequence)
    (later : List Event) : before ++ events <+: before ++ sequence ++ later := by
  rw [List.append_assoc]
  exact (List.prefix_append_right_inj before).mpr (h.trans (List.prefix_append sequence later))

/-- A cut of a part is a cut of the whole. -/
theorem Cut.within {sequence events : List Event} (cut : Cut sequence events)
    (before later : List Event) : Cut (before ++ sequence ++ later) (before ++ events) := by
  cases cut with
  | here h => exact .here (prefix_append h later)
  | @unspawned events entryPoint h =>
    rw [← List.append_assoc]
    refine .unspawned ?_
    rw [List.append_assoc]
    exact prefix_append h later
  | @ended earlier during entryPoint h unended =>
    rw [← List.append_assoc, ← List.append_assoc]
    refine .ended ?_ unended
    rw [List.append_assoc]
    exact prefix_append h later

/-- A session shows a cut of its dialogue. -/
theorem cut_of_life {r : RoundTrip} {entryPoint : String} {phase : Session.Phase}
    {seen : List Session.Event} (life : Session.Life r entryPoint phase seen) :
    Cut ((Session.dialogue r entryPoint).map .session) (seen.map .session) := by
  -- the messages that were handed over begin the dialogue
  have hopened : ∀ {sent pending : List HostMessage}, r.messages = .ok (sent ++ pending) →
      (Session.opened entryPoint sent).map Event.session <+:
        (Session.dialogue r entryPoint).map .session := by
    intro sent pending h
    rw [Session.dialogue_eq h, Session.opened_append_all, List.append_assoc]
    exact (List.prefix_append _ _).map _
  cases life with
  | unopened | unwanted | invalid => exact .here List.nil_prefix
  | unspawned now e h =>
    have hspawned : [] ++ [.session (.spawned entryPoint true)] <+:
        (Session.dialogue r entryPoint).map Event.session := by
      rw [Session.dialogue_eq h]
      exact List.prefix_append _ _
    exact .unspawned hspawned
  | posting h live => exact .here (hopened h)
  | @awaiting p messages deadline h live =>
    rw [← List.append_nil messages] at h
    exact .here (hopened h)
  | answered now h spent =>
    rw [Session.dialogue_eq h]
    exact .here List.prefix_rfl
  | @unanswered p sent pending outcome now h why spent =>
    have hunended : .session .terminated ∉ (sent.map Session.Event.handed).map Event.session := by
      simp
    rw [List.map_append]
    have hprefix : [] ++ .session (.spawned entryPoint true) ::
        (sent.map Session.Event.handed).map Event.session <+:
          (Session.dialogue r entryPoint).map .session := hopened h
    exact .ended hprefix hunended

/-- The sequence of an action is what is seen when all stages of its plan succeed. -/
theorem sequence_eq (c : Coordinator) (request : Http.Request) (attached : Bool) (a : Action)
    (url : String) :
    c.sequence request attached a = trace request attached (c.plan (.act a url)) := by
  have hhandover : ∀ (p : Prompt) timeout,
      c.handover p = trace request attached (c.sessions p timeout) := by
    intro p timeout
    unfold Coordinator.handover Coordinator.sessions Coordinator.target?
    cases c.canSpawn with
    | false => rfl
    | true =>
      cases c.entryPoint with
      | none => rfl
      | some entryPoint =>
        have hmessages : RoundTrip.messages ⟨p.exchange, timeout, c.workerOptions⟩ =
            .ok (c.workerOptions.toList.map .config ++ [.prompt p]) :=
          Session.messages_of_prompt rfl
        show _ = (Session.dialogue _ entryPoint).map Event.session ++ []
        rw [Session.dialogue_eq hmessages, List.append_nil]
        simp [Session.opened, Prompt.exchange]
  cases a with
  | start =>
    show c.handover .start ++ _ = trace _ _ (c.sessions .start c.responseTimeout ++ _)
    rw [hhandover .start c.responseTimeout, Coordinator.trace_append]
    rfl
  | submit =>
    show _ ++ c.handover .finish ++ _ =
      trace _ _ (_ ++ c.sessions .finish c.responseTimeout ++ _)
    rw [hhandover .finish c.responseTimeout, Coordinator.trace_append, Coordinator.trace_append]
    rfl

/-! ## Workers that are ended -/

/-- Whether a worker was spawned. -/
def Event.isSpawn : Event → Bool
  | .session (.spawned _ obtained) => obtained
  | _ => false

/-- As many workers were ended as were spawned. -/
def Balanced (events : List Event) : Prop :=
  events.countP Event.isSpawn = events.count (.session .terminated)

theorem Balanced.append {events later : List Event} (h : Balanced events) (hl : Balanced later) :
    Balanced (events ++ later) := by
  unfold Balanced at *
  rw [List.countP_append, List.count_append, h, hl]

/-- Events that neither spawn a worker nor end one are balanced. -/
theorem balanced_of_plain {events : List Event}
    (h : ∀ e ∈ events, e.isSpawn = false ∧ e ≠ .session .terminated) : Balanced events := by
  have hspawns : events.countP Event.isSpawn = 0 :=
    List.countP_eq_zero.mpr fun e he => Bool.eq_false_iff.mp (h e he).1
  have hends : events.count (.session .terminated) = 0 :=
    List.count_eq_zero.mpr fun hmem => (h _ hmem).2 rfl
  unfold Balanced
  rw [hspawns, hends]

/-- A worker that is spawned first and ended last keeps the balance. -/
theorem Balanced.enclose {events : List Event} (h : Balanced events) (entryPoint : String) :
    Balanced (.session (.spawned entryPoint true) :: events ++ [.session .terminated]) := by
  unfold Balanced at *
  simp only [List.cons_append, List.countP_cons, List.countP_append, List.count_cons,
    List.count_append, h]
  simp [Event.isSpawn]

/-- What a session shows that spawns a worker and ends it is balanced. -/
theorem balanced_opened (entryPoint : String) (sent : List HostMessage)
    (types : List MessageType) :
    Balanced ((Session.opened entryPoint sent ++ types.map Session.Event.matched ++
      [Session.Event.terminated]).map .session) := by
  have hplain : Balanced
      ((sent.map Session.Event.handed ++ types.map Session.Event.matched).map .session) := by
    refine balanced_of_plain fun e he => ?_
    obtain ⟨seen, hseen, rfl⟩ := List.mem_map.mp he
    rcases List.mem_append.mp hseen with h | h
    · obtain ⟨m, -, rfl⟩ := List.mem_map.mp h
      exact ⟨rfl, nofun⟩
    · obtain ⟨type, -, rfl⟩ := List.mem_map.mp h
      exact ⟨rfl, nofun⟩
  rw [List.map_append]
  exact hplain.enclose entryPoint

theorem balanced_dialogue (r : RoundTrip) (entryPoint : String) :
    Balanced ((Session.dialogue r entryPoint).map .session) := by
  unfold Session.dialogue
  cases r.messages with
  | error e => rfl
  | ok messages =>
    dsimp only
    rw [List.append_cons]
    exact balanced_opened entryPoint messages [r.exchange.response]

/-- A session is balanced once it is over. -/
theorem balanced_of_life {r : RoundTrip} {entryPoint : String} {port : Option Port} {time : Nat}
    {outcome : Session.Outcome} {seen : List Session.Event}
    (life : Session.Life r entryPoint (.over port time outcome) seen) :
    Balanced (seen.map .session) := by
  cases life with
  | unwanted | invalid | unspawned => rfl
  | answered now h spent =>
    rw [← Session.dialogue_eq h]
    exact balanced_dialogue r entryPoint
  | @unanswered p sent pending outcome now h why spent =>
    rw [← List.append_nil (Session.opened entryPoint sent)]
    exact balanced_opened entryPoint sent []

theorem balanced_trace (request : Http.Request) (attached : Bool) (stages : List Stage) :
    Balanced (trace request attached stages) := by
  induction stages with
  | nil => rfl
  | cons stage rest ih =>
    refine Balanced.append ?_ ih
    cases stage with
    | detach | update | reload => rfl
    | session r entryPoint => exact balanced_dialogue r entryPoint

/-- A call is balanced once it has a result. -/
theorem Journey.balanced {c : Coordinator} {t : Task} {result : Result} {events : List Event}
    (journey : Journey c t (.over result) events) : Balanced events := by
  cases journey with
  | complete | stopped => exact balanced_trace _ _ _
  | unanswered attached plan sent life ended unanswered broken =>
    obtain ⟨port, hphase⟩ := Session.phase_of_result? ended
    rw [hphase] at life
    exact (balanced_trace _ _ _).append (balanced_of_life life)
  | unreported => exact (balanced_trace _ _ _).append rfl

/-! ## Requests and the reload -/

/-- The plan of an action ends with its one reload, and reports nothing but the action. -/
theorem plan_act (c : Coordinator) (a : Action) (url : String) :
    ∃ init, c.plan (.act a url) = init ++ [.reload] ∧ .reload ∉ init ∧
      ∀ a' url', .update a' url' ∈ init → a' = a ∧ url' = url := by
  have hsessions : ∀ p timeout, ∀ stage ∈ c.sessions p timeout,
      ∃ r entryPoint, stage = .session r entryPoint := by
    intro p timeout stage hstage
    obtain ⟨entryPoint, -, rfl⟩ := List.mem_map.mp hstage
    exact ⟨_, entryPoint, rfl⟩
  have hreload : ∀ p timeout, .reload ∉ c.sessions p timeout := by
    intro p timeout hmem
    obtain ⟨r, entryPoint, h⟩ := hsessions p timeout _ hmem
    cases h
  have hupdate : ∀ p timeout a' url', .update a' url' ∉ c.sessions p timeout := by
    intro p timeout a' url' hmem
    obtain ⟨r, entryPoint, h⟩ := hsessions p timeout _ hmem
    cases h
  cases a with
  | start =>
    refine ⟨c.sessions .start c.responseTimeout ++ [.update .start url], ?_, ?_, ?_⟩
    · rw [List.append_assoc]
      rfl
    · simp [hreload]
    · intro a' url' hmem
      simpa [hupdate] using hmem
  | submit =>
    refine ⟨[.detach, .update .submit url] ++ c.sessions .finish c.responseTimeout, rfl, ?_, ?_⟩
    · simp [hreload]
    · intro a' url' hmem
      simpa [hupdate] using hmem

variable {c : Coordinator} {t : Task} {a : Action} {url : String} {done rest : List Stage}
  {request : Http.Request} {attached : Bool} {phase : Phase} {events : List Event}

/-- A call that has stages left has not reloaded the page. -/
theorem no_reload_before (plan : c.plan (.act a url) = done ++ rest) (unfinished : rest ≠ []) :
    .reloaded ∉ trace request attached done := by
  obtain ⟨init, hinit, hnone, -⟩ := plan_act c a url
  obtain ⟨front, last, rfl⟩ := (List.eq_nil_or_concat rest).resolve_left unfinished
  rw [hinit, List.concat_eq_append, ← List.append_assoc] at plan
  obtain ⟨rfl, -⟩ := List.append_inj' plan rfl
  intro hmem
  obtain ⟨stage, hstage, hseen⟩ := List.mem_flatMap.mp hmem
  cases stage with
  | reload => exact hnone (List.mem_append_left front hstage)
  | detach | update => simp [Stage.trace] at hseen
  | session => simp [Stage.trace] at hseen

/-- The page is reloaded exactly when the call succeeds. -/
theorem Journey.reloaded_iff (journey : Journey c (.act a url) phase events) :
    .reloaded ∈ events ↔ phase = .over (.acted a c.usesWorker) := by
  have hsession : ∀ seen : List Session.Event, .reloaded ∉ seen.map Event.session := by
    intro seen
    simp
  cases journey with
  | working attached plan sent unfinished =>
    simp [no_reload_before plan unfinished]
  | inSession attached plan sent life still =>
    simp [no_reload_before plan, hsession]
  | inRequest attached plan sent =>
    simp [no_reload_before plan]
  | @complete request attached sent =>
    obtain ⟨init, hinit, -⟩ := plan_act c a url
    rw [hinit, Coordinator.trace_snoc]
    simp [Stage.trace, success]
  | stopped attached plan sent unfinished broken =>
    cases broken <;> simp [no_reload_before plan unfinished]
  | unanswered attached plan sent life ended unanswered broken =>
    cases broken <;> simp [no_reload_before plan, hsession]
  | unreported attached plan sent broken =>
    cases broken <;> simp [no_reload_before plan]

/-- A request in what is seen of stages is the request of a report among them. -/
theorem mem_trace_requested {request' : Http.Request} {attached' : Bool}
    (h : .requested request' attached' ∈ trace request attached done) :
    request' = request ∧ ∃ a url, .update a url ∈ done := by
  obtain ⟨stage, hstage, hseen⟩ := List.mem_flatMap.mp h
  cases stage with
  | update a url =>
    have hsame : request' = request ∧ attached' = attached := by simpa [Stage.trace] using hseen
    exact ⟨hsame.1, a, url, hstage⟩
  | detach | reload => simp [Stage.trace] at hseen
  | session => simp [Stage.trace] at hseen

/-- Every request reports the action that was asked for. -/
theorem Journey.requested (journey : Journey c (.act a url) phase events)
    {request' : Http.Request} {attached' : Bool} (h : .requested request' attached' ∈ events) :
    c.client.updateRequest url a = .ok request' := by
  obtain ⟨init, hinit, -, honly⟩ := plan_act c a url
  have hreport : ∀ {a' url'}, .update a' url' ∈ c.plan (.act a url) → a' = a ∧ url' = url := by
    intro a' url' hmem
    rw [hinit] at hmem
    exact honly a' url' (by simpa using hmem)
  -- a request of stages that were left behind
  have hdone : ∀ {done rest : List Stage} {request : Http.Request} {attached : Bool},
      c.plan (.act a url) = done ++ rest → Sent c request done →
      .requested request' attached' ∈ trace request attached done →
      c.client.updateRequest url a = .ok request' := by
    intro done rest request attached plan sent hmem
    obtain ⟨rfl, a', url', hupdate⟩ := mem_trace_requested hmem
    have hstage : .update a' url' ∈ c.plan (.act a url) := by
      rw [plan]
      exact List.mem_append_left rest hupdate
    obtain ⟨rfl, rfl⟩ := hreport hstage
    exact sent a' url' hupdate
  -- a request of the stage in hand
  have hlast : ∀ {done rest : List Stage} {request : Http.Request} {attached : Bool} {a' url'},
      c.plan (.act a url) = done ++ .update a' url' :: rest →
      c.client.updateRequest url' a' = .ok request →
      .requested request' attached' ∈
        trace request attached done ++ [.requested request attached] →
      c.client.updateRequest url a = .ok request' := by
    intro done rest request attached a' url' plan sent hmem
    have hstage : .update a' url' ∈ c.plan (.act a url) := by
      rw [plan]
      exact List.mem_append_right done List.mem_cons_self
    obtain ⟨rfl, rfl⟩ := hreport hstage
    rcases List.mem_append.mp hmem with hmem | hmem
    · obtain ⟨rfl, -⟩ := mem_trace_requested hmem
      exact sent
    · cases List.mem_singleton.mp hmem
      exact sent
  cases journey with
  | working attached plan sent unfinished => exact hdone plan sent h
  | inSession attached plan sent life still => exact hdone plan sent (by simpa using h)
  | inRequest attached plan sent => exact hlast plan sent h
  | complete attached sent => exact hdone (List.append_nil _).symm sent h
  | stopped attached plan sent unfinished broken => exact hdone plan sent h
  | unanswered attached plan sent life ended unanswered broken =>
    exact hdone plan sent (by simpa using h)
  | unreported attached plan sent broken => exact hlast plan sent h

/-! ## The sequence -/

/-- What is seen of a call is a cut of what is seen when all its stages succeed. -/
theorem Journey.cut (journey : Journey c t phase events) :
    ∃ request attached, Cut (trace request attached (c.plan t)) events := by
  -- the stages that were left behind begin the sequence
  have hdone : ∀ {done rest : List Stage} {request : Http.Request} {attached : Bool},
      c.plan t = done ++ rest →
      trace request attached done <+: trace request attached (c.plan t) := by
    intro done rest request attached plan
    rw [plan, Coordinator.trace_append]
    exact List.prefix_append _ _
  -- so does the stage in hand, as far as it has come
  have hlast : ∀ {done rest : List Stage} {stage : Stage} {request : Http.Request}
      {attached : Bool} {seen : List Event}, c.plan t = done ++ stage :: rest →
      Cut (stage.trace request attached) seen →
      Cut (trace request attached (c.plan t)) (trace request attached done ++ seen) := by
    intro done rest stage request attached seen plan cut
    rw [plan, List.append_cons, Coordinator.trace_append, Coordinator.trace_snoc]
    exact cut.within _ _
  have hrequest : ∀ {a url} {request : Http.Request} {attached : Bool},
      Cut (Stage.trace request attached (.update a url)) [.requested request attached] := by
    intro a url request attached
    exact .here (List.prefix_append _ [_])
  cases journey with
  | working attached plan sent unfinished => exact ⟨_, attached, .here (hdone plan)⟩
  | inSession attached plan sent life still => exact ⟨_, attached, hlast plan (cut_of_life life)⟩
  | inRequest attached plan sent => exact ⟨_, attached, hlast plan hrequest⟩
  | complete attached sent => exact ⟨_, attached, .here List.prefix_rfl⟩
  | stopped attached plan sent unfinished broken => exact ⟨_, attached, .here (hdone plan)⟩
  | unanswered attached plan sent life ended unanswered broken =>
    exact ⟨_, attached, hlast plan (cut_of_life life)⟩
  | unreported attached plan sent broken => exact ⟨_, attached, hlast plan hrequest⟩

/-- A call that has succeeded has shown the whole sequence. -/
theorem Journey.eq_sequence {b : Action} {used : Bool}
    (journey : Journey c (.act a url) (.over (.acted b used)) events) :
    ∃ request attached, events = c.sequence request attached a := by
  generalize hphase : Phase.over (.acted b used) = phase at journey
  cases journey with
  | @complete request attached sent => exact ⟨request, attached, (sequence_eq c _ _ a url).symm⟩
  | working | inSession | inRequest => cases hphase
  | stopped attached plan sent unfinished broken => cases hphase; cases broken
  | unanswered attached plan sent life ended unanswered broken => cases hphase; cases broken
  | unreported attached plan sent broken => cases hphase; cases broken

/-- Only an answer with a status of success counts as an update. -/
theorem updated_step {call : Call} {gate : Gate} {m : Move} {b : Action}
    (h : .updated b ∈ (call.step gate m).2.2) :
    ∃ status body, m = .reply (.answer status body) ∧ Http.isSuccess status = true := by
  obtain ⟨c, t, phase⟩ := call
  change .updated b ∈ (stepPhase ⟨c, t, phase⟩ gate phase m).2.2 at h
  cases phase with
  | working stages =>
    cases stages with
    | nil => cases m <;> cases h
    | cons stage rest =>
      cases m with
      | session | reply | abandon => cases h
      | proceed =>
        cases stage with
        | detach | reload | session => simp [stepPhase, begin] at h
        | update a url =>
          simp only [stepPhase, begin] at h
          split at h <;> simp at h
  | inSession s rest =>
    cases m with
    | session | abandon => simp [stepPhase] at h
    | proceed | reply => cases h
  | inRequest a url rest =>
    cases m with
    | proceed | session | abandon => cases h
    | reply reply =>
      simp only [stepPhase] at h
      cases reply with
      | silence | brokenOff => cases h
      | answer status body =>
        refine ⟨status, body, rfl, ?_⟩
        cases hsuccess : Http.isSuccess status with
        | true => rfl
        | false => simp [Client.concludeUpdate, Client.successBody, hsuccess, Except.map] at h
  | _ => cases m <;> cases h

theorem updated_run {call : Call} {gate : Gate} {moves : List Move} {b : Action}
    (h : .updated b ∈ (call.run gate moves).2.2) :
    ∃ status body, .reply (.answer status body) ∈ moves ∧ Http.isSuccess status = true := by
  induction moves generalizing call gate with
  | nil => cases h
  | cons m rest ih =>
    rw [run_cons] at h
    rcases List.mem_append.mp h with hstep | hrest
    · obtain ⟨status, body, rfl, hsuccess⟩ := updated_step hstep
      exact ⟨status, body, List.mem_cons_self, hsuccess⟩
    · obtain ⟨status, body, hmem, hsuccess⟩ := ih hrest
      exact ⟨status, body, List.mem_cons_of_mem m hmem, hsuccess⟩

/-- What holds of a call for an action, at every point of its run:
1. what was seen is a cut of the sequence of the action;
2. what was sent is the request that reports the action to its URL;
3. an update means that the server answered with a status of success;
4. once there is a result, every worker that was spawned was ended;
5. the page was reloaded if and only if the call succeeded, and then the whole sequence was seen. -/
structure Sequenced (c : Coordinator) (a : Action) (url : String) (moves : List Move) (call : Call)
    (events : List Event) : Prop where
  cut : ∃ request attached, Cut (c.sequence request attached a) events
  requested : ∀ request attached, .requested request attached ∈ events →
    request.method = .put ∧ c.client.resolve url = .ok request.url ∧
      request.body = some ("\x7b\"action\":\"" ++ a.name ++ "\"\x7d")
  answered : ∀ b, .updated b ∈ events →
    ∃ status body, .reply (.answer status body) ∈ moves ∧ Http.isSuccess status = true
  balanced : call.result?.isSome → Balanced events
  reloaded : .reloaded ∈ events ↔ call.result? = some (.acted a c.usesWorker)
  whole : .reloaded ∈ events → ∃ request attached, events = c.sequence request attached a

theorem sequenced_run (c : Coordinator) (a : Action) (url : String) (gate : Gate)
    (moves : List Move) :
    Sequenced c a url moves ((start c (.act a url)).run gate moves).1
      ((start c (.act a url)).run gate moves).2.2 := by
  have journey := journey_run c (.act a url) gate moves
  refine {
    cut := ?_
    requested := ?_
    answered := fun b h => updated_run h
    balanced := ?_
    reloaded := journey.reloaded_iff.trans result?_eq_some_iff.symm
    whole := ?_ }
  · obtain ⟨request, attached, hcut⟩ := journey.cut
    rw [← sequence_eq] at hcut
    exact ⟨request, attached, hcut⟩
  · intro request attached h
    obtain ⟨hmethod, hbody, hurl⟩ := Client.request_ok (journey.requested h)
    rw [← Action.render_updateBody]
    exact ⟨hmethod, hurl, hbody⟩
  · intro hresult
    obtain ⟨result, hresult⟩ := Option.isSome_iff_exists.mp hresult
    rw [result?_eq_some_iff.mp hresult] at journey
    exact journey.balanced
  · intro h
    rw [journey.reloaded_iff.mp h] at journey
    exact journey.eq_sequence

/-- The plan of an action can succeed if its request can be put together. -/
theorem feasible_of_mem_plan (hrequest : c.client.updateRequest url a = .ok request) :
    ∀ stage ∈ c.plan (.act a url), stage.Feasible c := by
  have hsessions : ∀ p timeout, ∀ stage ∈ c.sessions p timeout, stage.Feasible c := by
    intro p timeout stage hstage
    obtain ⟨entryPoint, -, rfl⟩ := List.mem_map.mp hstage
    exact ⟨p, rfl⟩
  intro stage hstage
  cases a with
  | start =>
    rcases List.mem_append.mp hstage with h | h
    · exact hsessions _ _ stage h
    · rcases List.mem_cons.mp h with rfl | h
      · exact ⟨request, hrequest⟩
      · obtain rfl := List.mem_singleton.mp h
        trivial
  | submit =>
    rcases List.mem_append.mp hstage with h | h
    · rcases List.mem_append.mp h with h | h
      · rcases List.mem_cons.mp h with rfl | h
        · trivial
        · obtain rfl := List.mem_singleton.mp h
          exact ⟨request, hrequest⟩
      · exact hsessions _ _ stage h
    · obtain rfl := List.mem_singleton.mp h
      trivial

/-- **A call keeps to its sequence**, whatever the server, the worker and the caller do, and it can
come to the end of it if its request can be put together. -/
theorem run_sequence (c : Coordinator) (a : Action) (url : String) (gate : Gate) :
    (∀ moves, Sequenced c a url moves ((start c (.act a url)).run gate moves).1
      ((start c (.act a url)).run gate moves).2.2) ∧
    ∀ request, c.client.updateRequest url a = .ok request →
      ∃ moves, ((start c (.act a url)).run gate moves).1.result? =
        some (.acted a c.usesWorker) := by
  refine ⟨sequenced_run c a url gate, fun request hrequest => ?_⟩
  obtain ⟨moves, hmoves⟩ := reaches_success (feasible_of_mem_plan hrequest) gate
  exact ⟨moves, result?_eq_some_iff.mpr hmoves⟩

end Call

end Invigilation
