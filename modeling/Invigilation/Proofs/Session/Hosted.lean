import Invigilation.Proofs.Session.Bond
import Invigilation.Proofs.Session.Source

/-!
# A session and its worker together

A session and a worker in its host's process know each other by two bounded channels only. Put
together, in whatever order they take turns, the worker makes the calls that the session is about
and no others, and the session is answered only if the hook of its prompt has succeeded.

- `Hosted.Turn`, `Hosted.turns`: the moves of both, while the factory may change its answers.
- `Hosted.Coupled`, `Hosted.Coupled.turn`: what holds of the two at once, and that **every turn of
  either keeps it**.
- `Hosted.errand`: the calls that a session asks for.
- `Hosted.Concluded`, `Hosted.concluded_turns`: **what comes of a session and its worker**, at every
  point of every run.
-/

namespace Invigilation

open Service (Attuned Dealing received post?)

namespace Hosted

variable {η : Type}

/-! ## Turns -/

/-- What can happen to a session and its worker. -/
inductive Turn (η : Type) where
  | move (m : Move)
  /-- The factory and its handlers change their answers. -/
  | refit (factory : Factory η)

/-- One turn. -/
def turn (h : Hosted η) : Turn η → Hosted η × List Event
  | .move m => h.step m
  | .refit factory => ({ h with worker := { h.worker with factory } }, [])

/-- A run of turns. -/
def turns (h : Hosted η) : List (Turn η) → Hosted η × List Event
  | [] => (h, [])
  | t :: rest =>
    let (h, events) := h.turn t
    let (h, later) := h.turns rest
    (h, events ++ later)

/-- What is seen of the session. -/
def sessionEvents (events : List Event) : List Session.Event :=
  events.filterMap fun
    | .session e => some e
    | .worker _ => none

/-- What is seen of the worker. -/
def workerEvents (events : List Event) : List Worker.Event :=
  events.filterMap fun
    | .session _ => none
    | .worker e => some e

/-- The factories that come into force in a run. -/
def refits (ts : List (Turn η)) : List (Factory η) :=
  ts.filterMap fun
    | .move _ => none
    | .refit factory => some factory

variable {factory : Factory η} {fits : List (Factory η)} {dealt : List (Dealing η)}
  {handed : List HostMessage} {events : List Worker.Event} {parted : Prop} {r : RoundTrip}
  {p : Port} {w : Worker η} {s : Service η}

/-! ## Every turn -/

theorem sessionEvents_append (events later : List Event) :
    sessionEvents (events ++ later) = sessionEvents events ++ sessionEvents later :=
  List.filterMap_append

theorem workerEvents_append (events later : List Event) :
    workerEvents (events ++ later) = workerEvents events ++ workerEvents later :=
  List.filterMap_append

/-- Each of the two has its own events. -/
theorem sessionEvents_seen (seen : List Session.Event) (done : List Worker.Event) :
    sessionEvents (seen.map .session ++ done.map .worker) = seen := by
  simp [sessionEvents, List.filterMap_map]

theorem workerEvents_seen (seen : List Session.Event) (done : List Worker.Event) :
    workerEvents (seen.map .session ++ done.map .worker) = done := by
  simp [workerEvents, List.filterMap_map]

/-- What holds of a session and its worker, when this was seen of them. -/
structure Coupled (factory : Factory η) (fits : List (Factory η)) (h : Hosted η)
    (events : List Event) : Prop where
  life : Session.Life h.session.request h.session.entryPoint h.session.phase (sessionEvents events)
  bound : Bound factory fits h.session.request h.session.phase h.worker
    (Session.handed (sessionEvents events)) (workerEvents events)
  sourced : h.session.phase.Sourced (· ∈ (workerEvents events).filterMap post?)
  matched : ∀ type, .matched type ∈ sessionEvents events →
    ∃ m, m.messageType? = some type ∧ m ∈ (workerEvents events).filterMap post?

variable {h : Hosted η} {seen : List Event}

/-- Moves of the session, with what the worker does at the same time, keep them coupled. -/
theorem Coupled.extend (coupled : Coupled factory fits h seen) {moves : List Session.Move}
    {done : List Worker.Event}
    (bound : Bound factory fits h.session.request (h.session.run moves).1.phase w
      (Session.handed (sessionEvents seen) ++ Session.handed (h.session.run moves).2)
      (workerEvents seen ++ done))
    (sourced : (h.session.run moves).1.phase.Sourced
      (· ∈ (workerEvents seen ++ done).filterMap post?))
    (matched : ∀ type, .matched type ∈ (h.session.run moves).2 →
      ∃ m, m.messageType? = some type ∧ m ∈ (workerEvents seen ++ done).filterMap post?) :
    Coupled factory fits ⟨(h.session.run moves).1, w⟩
      (seen ++ ((h.session.run moves).2.map .session ++ done.map .worker)) := by
  have hseen : sessionEvents (seen ++ ((h.session.run moves).2.map .session ++ done.map .worker)) =
      sessionEvents seen ++ (h.session.run moves).2 := by
    rw [sessionEvents_append, sessionEvents_seen]
  have hdone : workerEvents (seen ++ ((h.session.run moves).2.map .session ++ done.map .worker)) =
      workerEvents seen ++ done := by
    rw [workerEvents_append, workerEvents_seen]
  have hrequest := h.session.run_request moves
  have hentry : (h.session.run moves).1.entryPoint = h.session.entryPoint := by
    rw [Session.run_fst]
  have hhanded : Session.handed (sessionEvents seen ++ (h.session.run moves).2) =
      Session.handed (sessionEvents seen) ++ Session.handed (h.session.run moves).2 :=
    List.filterMap_append
  refine ⟨?_, ?_, ?_, ?_⟩
  · rw [hseen, hrequest, hentry]
    exact coupled.life.run moves
  · rw [hseen, hdone, hrequest, hhanded]
    exact bound
  · rw [hdone]
    exact sourced
  · rw [hseen, hdone]
    intro type hmem
    rcases List.mem_append.mp hmem with hold | hnew
    · obtain ⟨m, htype, hm⟩ := coupled.matched type hold
      refine ⟨m, htype, ?_⟩
      rw [List.filterMap_append]
      exact List.mem_append_left _ hm
    · exact matched type hnew

/-- What was posted stays posted. -/
theorem Coupled.sourced_later (coupled : Coupled factory fits h seen) (done : List Worker.Event) :
    h.session.phase.Sourced (· ∈ (workerEvents seen ++ done).filterMap post?) := by
  refine coupled.sourced.mono fun m hm => ?_
  rw [List.filterMap_append]
  exact List.mem_append_left _ hm

/-- A session that has its worker cannot be opened again. -/
theorem Bound.opening {session : Session}
    (bound : Bound factory fits r session.phase w handed events) (now : Nat)
    (spawning : Except SessionError Link) :
    session.step (.opening now spawning) = (session, []) := by
  obtain ⟨r', entryPoint, phase⟩ := session
  obtain ⟨l, dealt, parted, joined, -⟩ := bound
  cases joined with
  | @live p progress => cases progress <;> rfl
  | apart => rfl

/-- A move of the session by itself. -/
theorem Coupled.session (coupled : Coupled factory fits h seen) (m : Session.Move) :
    Coupled factory fits (h.step (.session m)).1 (seen ++ (h.step (.session m)).2) := by
  have hquiet : Coupled factory fits h (seen ++ []) := by
    rwa [List.append_nil]
  -- the host and its caller bring no replies
  have hown : (∀ f, m ≠ .far f) → m.offers = [] →
      Coupled factory fits ⟨(h.session.run [m]).1, h.worker⟩
        (seen ++ ((h.session.run [m]).2.map .session ++ [].map .worker)) := by
    intro hfar hoffers
    have hnone : ∀ m' ∈ [m], ∀ reply ∈ m'.offers,
        reply ∈ (workerEvents seen ++ []).filterMap post? := by
      intro m' hm' reply hreply
      rw [List.mem_singleton.mp hm', hoffers] at hreply
      cases hreply
    obtain ⟨hsourced, hmatched⟩ := Session.sourced_run (coupled.sourced_later []) [m] hnone
    refine coupled.extend ?_ hsourced hmatched
    have hbound := coupled.bound.session h.session.entryPoint hfar
    have hevents : (h.session.run [m]).2 = (h.session.step m).2 := List.append_nil _
    rw [List.append_nil, hevents]
    exact hbound
  cases m with
  | far f => exact hquiet
  | host now => exact hown nofun rfl
  | abandon now => exact hown nofun rfl
  | opening now spawning =>
    have hsame : h.step (.session (.opening now spawning)) = (h, []) := by
      show (Hosted.mk (h.session.step (.opening now spawning)).1 h.worker,
        ((h.session.step (.opening now spawning)).2 ++ []).map Event.session ++ []) = _
      rw [coupled.bound.opening]
      rfl
    rw [hsame]
    exact hquiet

/-- What the worker replies with while the session goes on it posts. -/
theorem offers_far {m : Service.Move} (hadmits : p.replies.closed = false) :
    ∀ move ∈ ((⟨p.toLink, w⟩ : Service η).effects m).map Session.Move.far,
      ∀ reply ∈ move.offers, reply ∈ ((⟨p.toLink, w⟩ : Service η).work m).2.filterMap post? := by
  intro move hmove reply hreply
  obtain ⟨f, hf, rfl⟩ := List.mem_map.mp hmove
  cases f with
  | takePrompt | closeReplies | closePrompts => cases hreply
  | reply message =>
    cases List.mem_singleton.mp hreply
    exact Service.mem_posts_of_reply (s := ⟨p.toLink, w⟩) hadmits hf

/-- A move of the worker that can happen. -/
theorem Coupled.work (coupled : Coupled factory fits h seen) {m : Service.Move}
    (hp : h.session.port? = some p) (hm : m = .abort → h.session.isOver = true) :
    Coupled factory fits
      ⟨(h.session.run (((⟨p.toLink, h.worker⟩ : Service η).effects m).map .far)).1,
        ((⟨p.toLink, h.worker⟩ : Service η).work m).1⟩
      (seen ++
        ((h.session.run (((⟨p.toLink, h.worker⟩ : Service η).effects m).map .far)).2.map .session ++
          ((⟨p.toLink, h.worker⟩ : Service η).work m).2.map .worker)) := by
  have hnothing := run_far_events h.session ((⟨p.toLink, h.worker⟩ : Service η).effects m)
  refine coupled.extend ?_ ?_ ?_
  · have hfar := coupled.bound.far hp hm
    rw [hnothing]
    show Bound _ _ _ _ _ (_ ++ []) _
    rwa [List.append_nil]
  · have hlater := coupled.sourced_later ((⟨p.toLink, h.worker⟩ : Service η).work m).2
    obtain ⟨⟨r', entryPoint, phase⟩, w⟩ := h
    obtain ⟨l, dealt, parted, joined, -⟩ := coupled.bound
    cases joined with
    | apart settled =>
      cases hp
      rw [run_far_over rfl]
      trivial
    | live stays sends admits bounded =>
      cases hp
      refine (Session.sourced_run hlater _ fun move hmove reply hreply => ?_).1
      rw [List.filterMap_append]
      exact List.mem_append_right _ (offers_far admits move hmove reply hreply)
  · rw [hnothing]
    exact fun _ hseen => nomatch hseen

/-- A session that goes on has not ended its worker. -/
theorem live_of_life {progress : Session.Progress} {shown : List Session.Event}
    (life : Session.Life r entryPoint (.live p progress) shown) : p.Live := by
  cases life with
  | posting _ live => exact live
  | awaiting _ _ live => exact live

/-- A worker can be cut off only when its session is over. -/
theorem Coupled.over_of_terminated (coupled : Coupled factory fits h seen)
    (hp : h.session.port? = some p) (hended : p.isTerminated = true) :
    h.session.isOver = true := by
  obtain ⟨⟨r', entryPoint, phase⟩, w⟩ := h
  have hlife := coupled.life
  obtain ⟨l, dealt, parted, joined, -⟩ := coupled.bound
  cases joined with
  | apart settled => rfl
  | live stays sends admits bounded =>
    cases hp
    rw [Port.isTerminated, (live_of_life hlife).armed] at hended
    cases hended

/-- Every move of either keeps them coupled. -/
theorem Coupled.step (coupled : Coupled factory fits h seen) (m : Move) :
    Coupled factory fits (h.step m).1 (seen ++ (h.step m).2) := by
  cases m with
  | session m => exact coupled.session m
  | work m =>
    have hstep : h.service? m = none → h.step (.work m) = (h, []) := by
      intro hnone
      simp only [Hosted.step, sessionMoves, workerAfter, hnone]
      rfl
    have hquiet : Coupled factory fits h (seen ++ []) := by
      rwa [List.append_nil]
    cases hp : h.session.port? with
    | none =>
      rw [hstep (by simp [service?, hp])]
      exact hquiet
    | some p =>
      by_cases hbarred : m = .abort ∧ (!p.isTerminated) = true
      · have hservice : h.service? m = none := by
          simp only [service?, hp, Option.bind_some]
          exact if_pos hbarred
        rw [hstep hservice]
        exact hquiet
      · have hservice : h.service? m = some ⟨p.toLink, h.worker⟩ := by
          simp only [service?, hp, Option.bind_some]
          exact if_neg hbarred
        have hwork := coupled.work hp (m := m) fun hm => by
          refine coupled.over_of_terminated hp ?_
          by_contra hended
          exact hbarred ⟨hm, by simpa using hended⟩
        simp only [Hosted.step, sessionMoves, workerAfter, hservice]
        exact hwork

/-- A change of the factory does not touch the bond. -/
theorem Bound.refit {phase : Session.Phase} (bound : Bound factory fits r phase w handed events)
    (factory' : Factory η) :
    Bound factory (fits ++ [factory']) r phase { w with factory := factory' } handed events := by
  obtain ⟨l, dealt, parted, joined, attuned⟩ := bound
  obtain ⟨dealt', hrefit⟩ := attuned.refit factory'
  cases joined with
  | live stays sends admits bounded =>
    exact ⟨_, dealt', False, .live stays sends admits bounded, hrefit⟩
  | apart settled => exact ⟨_, dealt', True, .apart settled, hrefit⟩

/-- **Every turn keeps them coupled.** -/
theorem Coupled.turn (coupled : Coupled factory fits h seen) (t : Turn η) :
    Coupled factory (fits ++ refits [t]) (h.turn t).1 (seen ++ (h.turn t).2) := by
  cases t with
  | move m =>
    show Coupled factory (fits ++ []) _ _
    rw [List.append_nil]
    exact coupled.step m
  | refit factory' =>
    show Coupled factory (fits ++ [factory']) _ (seen ++ [])
    rw [List.append_nil]
    exact ⟨coupled.life, coupled.bound.refit factory', coupled.sourced, coupled.matched⟩

theorem Coupled.turns (coupled : Coupled factory fits h seen) (ts : List (Turn η)) :
    Coupled factory (fits ++ refits ts) (h.turns ts).1 (seen ++ (h.turns ts).2) := by
  induction ts generalizing h seen fits with
  | nil =>
    show Coupled factory (fits ++ []) h (seen ++ [])
    rwa [List.append_nil, List.append_nil]
  | cons t rest ih =>
    have hrest := ih (coupled.turn t)
    have hrefits : refits (t :: rest) = refits [t] ++ refits rest :=
      List.filterMap_append (l := [t])
    rw [List.append_assoc, List.append_assoc] at hrest
    rw [hrefits]
    exact hrest

/-! ## What comes of it -/

/-- A session and its worker when the worker was just spawned and neither has done anything. -/
def spawned (r : RoundTrip) (entryPoint : String) (factory : Factory η) (now : Nat) : Hosted η :=
  ((⟨⟨r, entryPoint, .unopened⟩, { factory }⟩ : Hosted η).step
    (.session (.opening now (.ok (.fresh Link.capacity))))).1

/-- What a session asks of its worker in the course of a prompt and its options: a handler is built
from empty options, and one from the options if there are any, and the last one is asked for the
hook. -/
def errand (p : Prompt) (config : Option Json) : List Worker.Event :=
  .built (.obj []) :: config.toList.map .built ++ [.called (config.getD (.obj [])) p]

theorem log_messages (p : Prompt) (config : Option Json) :
    Worker.log (config.toList.map .config ++ [.prompt p]) = errand p config := by
  cases config <;> rfl

theorem spawned_eq (p : Prompt) (timeout : Option Nat) (config : Option Json)
    (entryPoint : String) (factory : Factory η) (now : Nat) :
    spawned ⟨p.exchange, timeout, config⟩ entryPoint factory now =
      ⟨⟨⟨p.exchange, timeout, config⟩, entryPoint, .live (.fresh Link.capacity)
        (.posting (config.toList.map .config ++ [.prompt p]))⟩, { factory }⟩ := by
  have henter : Session.enter ⟨p.exchange, timeout, config⟩ entryPoint now
      (.ok (.fresh Link.capacity)) = (.live (.fresh Link.capacity)
        (.posting (config.toList.map .config ++ [.prompt p])), [.spawned entryPoint true]) := by
    simp only [Session.enter,
      Session.messages_of_prompt (r := ⟨p.exchange, timeout, config⟩) (p := p) rfl]
    rfl
  show Hosted.mk ⟨⟨p.exchange, timeout, config⟩, entryPoint, (Session.enter ⟨p.exchange, timeout,
    config⟩ entryPoint now (.ok (.fresh Link.capacity))).1⟩ { factory } = _
  rw [henter]

theorem coupled_spawned (p : Prompt) (timeout : Option Nat) (config : Option Json)
    (entryPoint : String) (factory : Factory η) (now : Nat) :
    Coupled factory [] (spawned ⟨p.exchange, timeout, config⟩ entryPoint factory now)
      [.session (.spawned entryPoint true)] := by
  rw [spawned_eq]
  refine ⟨?_, ?_, ?_, ?_⟩
  · show Session.Life _ _ _ (Session.opened entryPoint [])
    exact .posting (Session.messages_of_prompt rfl) (Port.live_ofLink _)
  · exact ⟨_, [], False, .live rfl rfl rfl nofun, Service.attuned_fresh factory Link.capacity⟩
  · exact fun m hm => nomatch hm
  · intro type hmem
    simp [sessionEvents] at hmem

/-- What holds of a session for a prompt and of its worker, at every point:
1. the worker has made a first part of the calls that it is asked for, and no others;
2. the session is answered only when the worker has made all of them and the hook has succeeded;
3. it ends with the answer, unless it is abandoned or its time is up; it is never found that the
   worker left or could not be sent to;
4. there is no answer if the hook is not implemented, or if it fails. -/
structure Concluded (p : Prompt) (timeout : Option Nat) (config : Option Json)
    (fits : List (Factory η)) (h : Hosted η) (done : List Worker.Event) : Prop where
  calls : Worker.calls done <+: errand p config
  answered : ∀ time, h.session.result? = some (time, .answered) →
    Worker.calls done = errand p config ∧ .succeeded p ∈ done
  settled : ∀ time outcome, h.session.result? = some (time, outcome) →
    outcome = .answered ∨ outcome = .abandoned ∨
      timeout.isSome = true ∧ outcome = .failed (.timedOut p.responseType)
  unmet : (∀ f ∈ fits, f (config.getD (.obj [])) p = none) ∨ .failed p ∈ done →
    ∀ time, h.session.result? ≠ some (time, .answered)

/-- The messages that were handed over begin those of the session. -/
theorem handed_begins {phase : Session.Phase} {shown : List Session.Event}
    {messages : List HostMessage} (life : Session.Life r entryPoint phase shown)
    (hmessages : r.messages = .ok messages) : Session.handed shown <+: messages := by
  have hsame : ∀ {messages'}, r.messages = .ok messages' → messages' = messages := by
    intro messages' h
    rw [hmessages] at h
    cases h
    rfl
  cases life with
  | unopened | unwanted | invalid | unspawned => exact List.nil_prefix
  | @posting p sent pending h live =>
    rw [← List.append_nil (Session.opened entryPoint sent), Session.handed_opened, ← hsame h]
    exact ⟨pending, by simp [Session.handed]⟩
  | @awaiting p sent deadline h live =>
    rw [← List.append_nil (Session.opened entryPoint sent), Session.handed_opened, ← hsame h]
    exact ⟨[], by simp [Session.handed]⟩
  | @answered p sent now h spent =>
    rw [Session.handed_opened, ← hsame h]
    exact ⟨[], by simp [Session.handed]⟩
  | @unanswered p sent pending outcome now h why spent =>
    rw [Session.handed_opened, ← hsame h]
    exact ⟨pending, by simp [Session.handed]⟩

/-- A prompt that begins the messages of a session is the last of them. -/
theorem eq_of_mem_begins {inbox before after : List HostMessage} {p q : Prompt}
    {config : Option Json} (hbegins : inbox <+: config.toList.map .config ++ [.prompt p])
    (hmem : inbox = before ++ .prompt q :: after) :
    q = p ∧ before = config.toList.map .config ∧ after = [] := by
  subst hmem
  cases config with
  | none =>
    obtain ⟨rest, heq⟩ := hbegins
    cases before with
    | nil =>
      cases after <;> simp_all
    | cons m before => simp at heq
  | some options =>
    obtain ⟨rest, heq⟩ := hbegins
    match before with
    | [] => simp at heq
    | [m] =>
      cases after <;> simp_all
    | m :: m' :: before => simp at heq

/-- The accounts of a worker that received at most the messages of a session: a hook that has
completed is that of the session's prompt, it was called for, and it has not completed otherwise. -/
theorem completed_of_attuned {config : Option Json} {q : Prompt} {p : Prompt}
    (h : Attuned factory fits s dealt handed events parted)
    (hbegins : received dealt <+: config.toList.map .config ++ [.prompt p])
    (hmem : .succeeded q ∈ events ∨ .failed q ∈ events) :
    q = p ∧ received dealt = config.toList.map .config ++ [.prompt p] ∧
      events.count (.failed q) + events.count (.succeeded q) = 1 ∧
      ¬ ∀ f ∈ factory :: fits, f (config.getD (.obj [])) p = none := by
  obtain ⟨hhooks, -⟩ := h.kept.accounts q
  have hreceived := Service.count_implemented_le factory (.obj []) dealt q
  have hcompleted : 0 < events.count (.failed q) + events.count (.succeeded q) := by
    rcases hmem with hsucceeded | hfailed
    · exact Nat.add_pos_right _ (List.count_pos_iff.mpr hsucceeded)
    · exact Nat.add_pos_left (List.count_pos_iff.mpr hfailed) _
  have hin : .prompt q ∈ received dealt := List.count_pos_iff.mp (by omega)
  obtain ⟨before, after, hsplit⟩ := List.append_of_mem hin
  obtain ⟨rfl, rfl, rfl⟩ := eq_of_mem_begins hbegins hsplit
  refine ⟨rfl, hsplit, ?_, fun habsent => ?_⟩
  · have honce : (received dealt).count (.prompt q) = 1 := by
      rw [hsplit, List.count_append, List.count_singleton_self]
      simp [List.count_eq_zero]
    omega
  · have hnone : q ∉ Service.implemented factory (.obj []) dealt := by
      refine Service.notMem_implemented fun before' after' hsplit' f hf => ?_
      obtain ⟨-, rfl, -⟩ := eq_of_mem_begins hbegins hsplit'
      have hforce : (config.toList.map HostMessage.config).foldl Service.reconfigured (.obj []) =
          config.getD (.obj []) := by cases config <;> rfl
      rw [hforce]
      rcases hf with rfl | hf
      · exact habsent f List.mem_cons_self
      · exact habsent f (List.mem_cons_of_mem _ (h.fitted f hf))
    rw [List.count_eq_zero.mpr hnone] at hhooks
    omega

/-- A session that was answered has shown the response. -/
theorem matched_of_answered {shown : List Session.Event} {port : Option Port} {time : Nat}
    (life : Session.Life r entryPoint (.over port time .answered) shown) :
    .matched r.exchange.response ∈ shown := by
  cases life with
  | answered now h spent => exact List.mem_append_right _ List.mem_cons_self
  | unanswered now h why spent => cases why

theorem Coupled.concluded {timeout : Option Nat} {config : Option Json} {p : Prompt}
    (coupled : Coupled factory fits h seen)
    (hrequest : h.session.request = ⟨p.exchange, timeout, config⟩) :
    Concluded p timeout config (factory :: fits) h (workerEvents seen) := by
  have hmessages : h.session.request.messages =
      .ok (config.toList.map .config ++ [.prompt p]) := by
    rw [hrequest]
    exact Session.messages_of_prompt rfl
  obtain ⟨l, dealt, parted, joined, attuned⟩ := coupled.bound
  have hbegins := attuned.answering.inOrder.trans (handed_begins coupled.life hmessages)
  have hcalls : Worker.calls (workerEvents seen) <+: errand p config := by
    rw [attuned.answering.calls, ← log_messages]
    split
    · exact Worker.log_mono hbegins
    · exact List.nil_prefix
  have hanswered : ∀ time, h.session.result? = some (time, .answered) →
      Worker.calls (workerEvents seen) = errand p config ∧ .succeeded p ∈ workerEvents seen := by
    intro time hresult
    obtain ⟨port, hphase⟩ := Session.phase_of_result? hresult
    have hlife := coupled.life
    rw [hphase] at hlife
    -- the response was posted by the worker, so the hook of a prompt has succeeded
    obtain ⟨m, -, hm⟩ := coupled.matched _ (matched_of_answered hlife)
    obtain ⟨e, he, hpost⟩ := List.mem_filterMap.mp hm
    cases e with
    | built | called | succeeded | failed | lost => cases hpost
    | posted q =>
      obtain ⟨-, hresponses⟩ := attuned.kept.accounts q
      have hposted : 0 < (workerEvents seen).count (.posted q) := List.count_pos_iff.mpr he
      have hsucceeded : .succeeded q ∈ workerEvents seen := List.count_pos_iff.mp (by omega)
      obtain ⟨rfl, hall, -, -⟩ := completed_of_attuned attuned hbegins (.inl hsucceeded)
      refine ⟨?_, hsucceeded⟩
      rw [attuned.answering.calls, hall, log_messages]
      split
      · rfl
      · next hidle =>
        have hnone := attuned.answering.idle (Bool.eq_false_iff.mpr hidle)
        rw [hall] at hnone
        simp at hnone
  refine ⟨hcalls, hanswered, ?_, ?_⟩
  · intro time outcome hresult
    obtain ⟨port, hphase⟩ := Session.phase_of_result? hresult
    rw [hphase] at joined
    cases joined with
    | apart settled =>
      rw [hrequest] at settled
      cases settled with
      | answered => exact .inl rfl
      | abandoned => exact .inr (.inl rfl)
      | timedOut hbounded => exact .inr (.inr ⟨hbounded, rfl⟩)
  · intro hunmet time hresult
    obtain ⟨-, hsucceeded⟩ := hanswered time hresult
    obtain ⟨-, -, honce, himplemented⟩ := completed_of_attuned attuned hbegins (.inl hsucceeded)
    rcases hunmet with habsent | hfailed
    · exact himplemented habsent
    · have hsucceeded := List.count_pos_iff.mpr hsucceeded
      have hfailed := List.count_pos_iff.mpr hfailed
      omega

theorem request_turn (h : Hosted η) (t : Turn η) :
    (h.turn t).1.session.request = h.session.request := by
  cases t with
  | refit => rfl
  | move m => exact h.session.run_request (h.sessionMoves m)

theorem request_turns (h : Hosted η) (ts : List (Turn η)) :
    (h.turns ts).1.session.request = h.session.request := by
  induction ts generalizing h with
  | nil => rfl
  | cons t rest ih => exact (ih (h.turn t).1).trans (h.request_turn t)

theorem turns_append (h : Hosted η) (ts later : List (Turn η)) :
    (h.turns (ts ++ later)).1 = ((h.turns ts).1.turns later).1 := by
  induction ts generalizing h with
  | nil => rfl
  | cons t rest ih => exact ih (h.turn t).1

/-- The turns in which the host hands over one message and the worker takes it. -/
def handing (η : Type) (now : Nat) : List (Turn η) :=
  [.move (.session (.host now)), .move (.work (.receive now))]

/-- The turns in which the one hook that runs succeeds and its response comes to the host. -/
def answering (η : Type) (now : Nat) : List (Turn η) :=
  [.move (.work (.complete 0 true)), .move (.work .post), .move (.session (.host now)),
    .move (.session (.host now))]

/-- A hook that is implemented is called once everything was handed over. -/
theorem exists_called (p : Prompt) (timeout : Option Nat) (config : Option Json)
    (entryPoint : String) {factory : Factory η} {hook : η} (now : Nat)
    (hhook : factory (config.getD (.obj [])) p = some hook) :
    ∃ ts : List (Turn η),
      ((spawned ⟨p.exchange, timeout, config⟩ entryPoint factory now).turns ts).1 =
        ⟨⟨⟨p.exchange, timeout, config⟩, entryPoint, .live (.fresh Link.capacity) (.posting [])⟩,
          { factory, options := config.getD (.obj []), running := [⟨p, hook, now⟩],
            started := true }⟩ := by
  have htask : (({ factory, options := config.getD (.obj []), started := true } :
      Worker η).receive now (.prompt p)).1.running = [⟨p, hook, now⟩] := by
    simp [Worker.receive, hhook]
  rw [spawned_eq]
  cases config with
  | none =>
    refine ⟨.move (.work .start) :: handing η now, ?_⟩
    rw [← htask]
    rfl
  | some options =>
    refine ⟨.move (.work .start) :: (handing η now ++ handing η now), ?_⟩
    rw [← htask]
    rfl

/-- A hook that runs may succeed, and then the session is answered. -/
theorem answered_of_called (p : Prompt) (timeout : Option Nat) (config : Option Json)
    (entryPoint : String) (factory : Factory η) (options : Json) (hook : η) (now : Nat) :
    ((⟨⟨⟨p.exchange, timeout, config⟩, entryPoint, .live (.fresh Link.capacity) (.posting [])⟩,
      { factory, options, running := [⟨p, hook, now⟩], started := true }⟩ : Hosted η).turns
        (answering η now)).1.session.result? = some (now, .answered) := by
  cases p <;> rfl

/-- **What comes of a session and a worker in its host's process**, in whatever order the host, the
worker and its hooks take turns, and however the factory answers. If the hook is implemented then
some order of turns has the session answered. -/
theorem concluded_turns (p : Prompt) (timeout : Option Nat) (config : Option Json)
    (entryPoint : String) (factory : Factory η) (now : Nat) :
    (∀ ts : List (Turn η), Concluded p timeout config (factory :: refits ts)
      ((spawned ⟨p.exchange, timeout, config⟩ entryPoint factory now).turns ts).1
      (workerEvents
        ((spawned ⟨p.exchange, timeout, config⟩ entryPoint factory now).turns ts).2)) ∧
    ((factory (config.getD (.obj [])) p).isSome = true →
      ∃ ts : List (Turn η), ((spawned ⟨p.exchange, timeout, config⟩ entryPoint factory
        now).turns ts).1.session.result? = some (now, .answered)) := by
  refine ⟨fun ts => ?_, fun hsome => ?_⟩
  · have hcoupled := (coupled_spawned p timeout config entryPoint factory now).turns ts
    refine hcoupled.concluded ?_
    rw [request_turns]
    rfl
  · obtain ⟨hook, hhook⟩ := Option.isSome_iff_exists.mp hsome
    obtain ⟨ts, hcalled⟩ := exists_called p timeout config entryPoint now hhook
    refine ⟨ts ++ answering η now, ?_⟩
    rw [turns_append, hcalled]
    exact answered_of_called p timeout config entryPoint factory _ hook now

end Hosted

end Invigilation
