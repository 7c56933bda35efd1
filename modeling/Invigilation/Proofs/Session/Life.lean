import Invigilation.Proofs.Session.Handover

/-!
# The life of a session

What a session has shown of itself is determined by how far it has come: the worker was asked for
once, some first part of the messages was handed over, and the worker was ended once if the session
is over and not at all if it is not.

- `Session.Life`: the events that belong to each phase.
- `Session.Life.step`, `Session.Life.run`: **every move keeps to it**, so that it holds at every
  point of every run.
- `Session.Attended`, `Session.attended_run`: what holds of a session that has spawned its worker.
- `Session.run_life`: what a session shows to its caller and its worker, wherever it is stopped.
-/

namespace Invigilation

namespace Session

/-! ## Runs -/

theorem phase_step (s : Session) (m : Move) :
    (s.step m).1.phase = (stepPhase s.request s.entryPoint s.phase m).1 := rfl

theorem run_cons (s : Session) (m : Move) (moves : List Move) :
    s.run (m :: moves) =
      (((s.step m).1.run moves).1, (s.step m).2 ++ ((s.step m).1.run moves).2) := rfl

theorem run_append (s : Session) (moves later : List Move) :
    s.run (moves ++ later) =
      (((s.run moves).1.run later).1, (s.run moves).2 ++ ((s.run moves).1.run later).2) := by
  induction moves generalizing s with
  | nil => rfl
  | cons m rest ih =>
    rw [List.cons_append, run_cons, run_cons, ih, List.append_assoc]

/-- A run changes nothing of a session but its phase. -/
theorem run_fst (s : Session) (moves : List Move) :
    (s.run moves).1 = { s with phase := (s.run moves).1.phase } := by
  induction moves generalizing s with
  | nil => rfl
  | cons m rest ih =>
    rw [run_cons]
    exact ih (s.step m).1

theorem run_request (s : Session) (moves : List Move) :
    (s.run moves).1.request = s.request := by
  rw [run_fst]

theorem result?_of_over {s : Session} {port : Option Port} {time : Nat} {outcome : Outcome}
    (h : s.phase = .over port time outcome) : s.result? = some (time, outcome) := by
  unfold result?
  rw [h]

theorem phase_of_result? {s : Session} {time : Nat} {outcome : Outcome}
    (h : s.result? = some (time, outcome)) : ∃ port, s.phase = .over port time outcome := by
  unfold result? at h
  split at h
  · cases h
    exact ⟨_, by assumption⟩
  · cases h

/-- A session that is over stays so. -/
theorem result?_step {s : Session} {result : Nat × Outcome} (h : s.result? = some result)
    (m : Move) : (s.step m).1.result? = some result := by
  obtain ⟨r, entryPoint, phase⟩ := s
  match phase, h with
  | .over none _ _, h => exact h
  | .over (some _) _ _, h => cases m <;> exact h

theorem result?_run {s : Session} {result : Nat × Outcome} (h : s.result? = some result)
    (moves : List Move) : (s.run moves).1.result? = some result := by
  induction moves generalizing s with
  | nil => exact h
  | cons m rest ih => exact ih (result?_step h m)

/-! ## The events that belong to a phase -/

/-- The events of a session that has handed over some messages. -/
def opened (entryPoint : String) (sent : List HostMessage) : List Event :=
  .spawned entryPoint true :: sent.map .handed

theorem opened_append (entryPoint : String) (sent : List HostMessage) (m : HostMessage) :
    opened entryPoint sent ++ [.handed m] = opened entryPoint (sent ++ [m]) := by
  simp [opened]

theorem opened_append_all (entryPoint : String) (sent pending : List HostMessage) :
    opened entryPoint (sent ++ pending) = opened entryPoint sent ++ pending.map .handed := by
  simp [opened]

/-- The ways in which a session with a worker ends unanswered, when some messages are pending. -/
inductive Unanswered (r : RoundTrip) : List HostMessage → Outcome → Prop where
  | abandoned (pending : List HostMessage) : Unanswered r pending .abandoned
  | undelivered (m : HostMessage) (rest : List HostMessage) :
      Unanswered r (m :: rest) (.failed (.sendFailed m.messageType?))
  | disconnected : Unanswered r [] (.failed (.disconnected r.exchange.response))
  | timedOut : Unanswered r [] (.failed (.timedOut r.exchange.response))

/-- The phases a session can be in when it has shown certain events. -/
inductive Life (r : RoundTrip) (entryPoint : String) : Phase → List Event → Prop where
  | unopened : Life r entryPoint .unopened []
  | unwanted (now : Nat) : Life r entryPoint (.over none now .abandoned) []
  | invalid {e : SessionError} (now : Nat) (h : r.messages = .error e) :
      Life r entryPoint (.over none now (.failed e)) []
  | unspawned {messages : List HostMessage} (now : Nat) (e : SessionError)
      (h : r.messages = .ok messages) :
      Life r entryPoint (.over none now (.failed e)) [.spawned entryPoint false]
  | posting {p : Port} {sent pending : List HostMessage}
      (h : r.messages = .ok (sent ++ pending)) (live : p.Live) :
      Life r entryPoint (.live p (.posting pending)) (opened entryPoint sent)
  | awaiting {p : Port} {messages : List HostMessage} (deadline : Option Nat)
      (h : r.messages = .ok messages) (live : p.Live) :
      Life r entryPoint (.live p (.awaiting deadline)) (opened entryPoint messages)
  | answered {p : Port} {messages : List HostMessage} (now : Nat)
      (h : r.messages = .ok messages) (spent : p.Spent) :
      Life r entryPoint (.over (some p) now .answered)
        (opened entryPoint messages ++ [.matched r.exchange.response, .terminated])
  | unanswered {p : Port} {sent pending : List HostMessage} {outcome : Outcome} (now : Nat)
      (h : r.messages = .ok (sent ++ pending)) (why : Unanswered r pending outcome)
      (spent : p.Spent) :
      Life r entryPoint (.over (some p) now outcome) (opened entryPoint sent ++ [.terminated])

/-! ## What the host does keeps to it -/

variable {r : RoundTrip} {entryPoint : String} {p : Port} {sent pending messages : List HostMessage}

/-- A live port shows its ending when it is given up. -/
theorem finish_eq (live : p.Live) (now : Nat) (outcome : Outcome) :
    finish p now outcome = (.over (some p.drop) now outcome, [.terminated]) := by
  unfold finish ending
  rw [if_pos live.armed]

/-- A live port that is first ended and then given up shows one ending. -/
theorem conclude_eq (live : p.Live) (now : Nat) (outcome : Outcome) :
    conclude p now outcome = (.over (some p.terminate.drop) now outcome, [.terminated]) := by
  have hdisarmed : ¬ p.terminate.armed = true := by simp [live.terminate.1]
  unfold conclude finish ending
  rw [if_pos live.armed, if_neg hdisarmed]
  rfl

theorem life_enter (r : RoundTrip) (entryPoint : String) (now : Nat)
    (spawning : Except SessionError Link) :
    Life r entryPoint (enter r entryPoint now spawning).1 (enter r entryPoint now spawning).2 := by
  unfold enter
  cases h : r.messages with
  | error e => exact .invalid now h
  | ok messages =>
    cases spawning with
    | error e => exact .unspawned now e h
    | ok link =>
      show Life r entryPoint (.live _ (.posting messages)) (opened entryPoint [])
      exact .posting h (Port.live_ofLink link)

theorem life_post (now : Nat) (h : r.messages = .ok (sent ++ pending)) (live : p.Live) :
    Life r entryPoint (post r p now pending).1
      (opened entryPoint sent ++ (post r p now pending).2) := by
  cases pending with
  | nil =>
    rw [List.append_nil] at h
    show Life r entryPoint (.live p (.awaiting _)) (opened entryPoint sent ++ [])
    rw [List.append_nil]
    exact .awaiting _ h live
  | cons m rest =>
    have hlive := live.send m
    simp only [post]
    obtain ⟨-, heq⟩ | ⟨-, -, heq⟩ | ⟨-, -, heq⟩ := p.send_cases m <;> rw [heq] at hlive ⊢
    · -- refused: the port is given up on the way out
      show Life r entryPoint (finish p now _).1 (_ ++ (finish p now _).2)
      rw [finish_eq live]
      exact .unanswered now h (.undelivered m rest) live.drop
    · show Life r entryPoint (.live _ (.posting rest)) (_ ++ [.handed m])
      rw [opened_append]
      exact .posting (by rw [h, List.append_cons]) hlive
    · show Life r entryPoint (.live p (.posting (m :: rest))) (_ ++ [])
      rw [List.append_nil]
      exact .posting h live

theorem life_await (now : Nat) (deadline : Option Nat) (h : r.messages = .ok messages)
    (live : p.Live) :
    Life r entryPoint (await r p now deadline).1
      (opened entryPoint messages ++ (await r p now deadline).2) := by
  have hlive := live.receive
  have hall : r.messages = .ok (messages ++ []) := by rw [h, List.append_nil]
  unfold await
  obtain ⟨m, rest, -, heq⟩ | ⟨-, -, heq⟩ | ⟨-, -, heq⟩ := p.receive_cases <;>
    rw [heq] at hlive ⊢
  · dsimp only
    split
    · rw [conclude_eq hlive]
      exact .answered now h hlive.terminate_drop
    · show Life r entryPoint (.live _ (.awaiting deadline)) (_ ++ [])
      rw [List.append_nil]
      exact .awaiting deadline h hlive
  · show Life r entryPoint (conclude p now _).1 (_ ++ (conclude p now _).2)
    rw [conclude_eq live]
    exact .unanswered now hall .disconnected live.terminate_drop
  · dsimp only
    split
    · rw [conclude_eq live]
      exact .unanswered now hall .timedOut live.terminate_drop
    · show Life r entryPoint (.live p (.awaiting deadline)) (_ ++ [])
      rw [List.append_nil]
      exact .awaiting deadline h live

/-- One move keeps to the life of a session. -/
theorem Life.step {phase : Phase} {events : List Event} (life : Life r entryPoint phase events)
    (m : Move) :
    Life r entryPoint (stepPhase r entryPoint phase m).1
      (events ++ (stepPhase r entryPoint phase m).2) := by
  -- a move that shows nothing and leads to a phase of the same kind
  have quiet : ∀ {phase' : Phase}, Life r entryPoint phase' events →
      Life r entryPoint phase' (events ++ []) := by
    intro phase' h
    rw [List.append_nil]
    exact h
  cases life with
  | unopened =>
    cases m with
    | opening now spawning => exact life_enter r entryPoint now spawning
    | abandon now => exact .unwanted now
    | host | far => exact .unopened
  | unwanted now => exact quiet (.unwanted now)
  | invalid now h => exact quiet (.invalid now h)
  | unspawned now e h => exact quiet (.unspawned now e h)
  | posting h live =>
    cases m with
    | opening => exact quiet (.posting h live)
    | host now => exact life_post now h live
    | far f => exact quiet (.posting h (live.far f))
    | abandon now =>
      show Life r entryPoint (finish _ now .abandoned).1 (_ ++ (finish _ now .abandoned).2)
      rw [finish_eq live]
      exact .unanswered now h (.abandoned _) live.drop
  | awaiting deadline h live =>
    cases m with
    | opening => exact quiet (.awaiting deadline h live)
    | host now => exact life_await now deadline h live
    | far f => exact quiet (.awaiting deadline h (live.far f))
    | abandon now =>
      show Life r entryPoint (finish _ now .abandoned).1 (_ ++ (finish _ now .abandoned).2)
      rw [finish_eq live]
      exact .unanswered now (by rw [h, List.append_nil]) (.abandoned []) live.drop
  | answered now h spent =>
    cases m with
    | far f => exact quiet (.answered now h (spent.far f))
    | opening | host | abandon => exact quiet (.answered now h spent)
  | unanswered now h why spent =>
    cases m with
    | far f => exact quiet (.unanswered now h why (spent.far f))
    | opening | host | abandon => exact quiet (.unanswered now h why spent)

/-- A run keeps to the life of a session. -/
theorem Life.run {s : Session} {events : List Event}
    (life : Life s.request s.entryPoint s.phase events) (moves : List Move) :
    Life s.request s.entryPoint (s.run moves).1.phase (events ++ (s.run moves).2) := by
  induction moves generalizing s events with
  | nil =>
    rw [show (s.run []).2 = [] from rfl, List.append_nil]
    exact life
  | cons m rest ih =>
    rw [run_cons, ← List.append_assoc]
    exact ih (s := (s.step m).1) (life.step m)

/-! ## What is seen of a session -/

/-- The requests for a worker: the entry point, and whether there was a worker. -/
def asked (events : List Event) : List (String × Bool) :=
  events.filterMap fun
    | .spawned entryPoint obtained => some (entryPoint, obtained)
    | _ => none

/-- A session that is over shows nothing more. -/
theorem events_run_of_over {s : Session} {result : Nat × Outcome} (h : s.result? = some result)
    (moves : List Move) : (s.run moves).2 = [] := by
  have hstep : ∀ {s : Session} {result : Nat × Outcome}, s.result? = some result →
      ∀ m, (s.step m).2 = [] := by
    rintro ⟨r, entryPoint, phase⟩ result h m
    match phase, h with
    | .over none _ _, _ => rfl
    | .over (some _) _ _, _ => cases m <;> rfl
  induction moves generalizing s with
  | nil => rfl
  | cons m rest ih =>
    rw [run_cons, hstep h m, ih (result?_step h m)]
    rfl

theorem asked_opened (entryPoint : String) (sent : List HostMessage) (events : List Event) :
    asked (opened entryPoint sent ++ events) = (entryPoint, true) :: asked events := by
  simp [asked, opened, List.filterMap_map]

theorem handed_opened (entryPoint : String) (sent : List HostMessage) (events : List Event) :
    handed (opened entryPoint sent ++ events) = sent ++ handed events := by
  unfold handed opened
  rw [List.filterMap_append, List.filterMap_cons_none rfl, List.filterMap_map]
  show sent.filterMap some ++ _ = _
  rw [List.filterMap_some]

theorem count_terminated_opened (entryPoint : String) (sent : List HostMessage)
    (events : List Event) :
    (opened entryPoint sent ++ events).count .terminated = events.count .terminated := by
  have hsent : (sent.map Event.handed).count .terminated = 0 := by
    simp [List.count_eq_zero]
  simp [opened, hsent]

/-- What holds of a session whose worker was spawned, at every point of its run:
1. no other worker was asked for;
2. the worker was ended once if the session is over, and not at all if it is not, by what is seen
   as well as by the port's own count;
3. the messages were handed over in order, and all of them before the wait began;
4. an answer, a worker that left and an expired deadline end a wait; a failure to send names the
   first message that could not be delivered;
5. such a failure is certain once the worker's receiving end is gone, whatever replies it has
   queued;
6. the worker took the first of what was queued when it was spawned and of what was handed over
   since, in order, and the others wait as long as it reads. -/
structure Attended (r : RoundTrip) (entryPoint : String) (messages queued taken : List HostMessage)
    (s : Session) (events : List Event) : Prop where
  asked_once : asked events = [(entryPoint, true)]
  ended_once : events.count .terminated = if s.isOver then 1 else 0
  terminations : ∃ p, s.port? = some p ∧ p.terminations = if s.isOver then 1 else 0
  handed_prefix : handed events <+: messages
  handed_all : ∀ p deadline, s.phase = .live p (.awaiting deadline) → handed events = messages
  result : ∀ time outcome, s.result? = some (time, outcome) →
    match outcome with
    | .answered => handed events = messages
    | .failed e =>
      (handed events = messages ∧
        (e = .disconnected r.exchange.response ∨ e = .timedOut r.exchange.response)) ∨
      ∃ m rest, handed events ++ m :: rest = messages ∧ e = .sendFailed m.messageType?
    | .abandoned => True
  undelivered : ∀ p m rest, s.port? = some p → s.isOver = false → p.prompts.closed = true →
    handed events ++ m :: rest = messages → ∀ time later,
      (s.run (.host time :: later)).1.result? = some (time, .failed (.sendFailed m.messageType?))
  read : taken <+: queued ++ handed events
  unread : ∀ p, s.port? = some p → p.prompts.closed = false →
    queued ++ handed events = taken ++ p.prompts.queue

/-- The host's attempt to send to a worker that reads no more ends the session. -/
theorem result?_of_closed {s : Session} {p : Port} {m : HostMessage} {rest : List HostMessage}
    (hphase : s.phase = .live p (.posting (m :: rest))) (hclosed : p.prompts.closed = true)
    (live : p.Live) (time : Nat) (later : List Move) :
    (s.run (.host time :: later)).1.result? =
      some (time, .failed (.sendFailed m.messageType?)) := by
  refine result?_run ?_ later
  have hsend : p.send m = (p, .refused (.sendFailed m.messageType?)) := by
    obtain ⟨-, heq⟩ | ⟨hopen, -⟩ | ⟨hopen, -⟩ := p.send_cases m
    · exact heq
    · rw [hopen] at hclosed
      cases hclosed
    · rw [hopen] at hclosed
      cases hclosed
  have hstep : (s.step (.host time)).1.phase =
      .over (some p.drop) time (.failed (.sendFailed m.messageType?)) := by
    rw [phase_step, hphase]
    simp only [stepPhase, post, hsend, finish_eq live]
  exact result?_of_over hstep

section

variable {queued taken : List HostMessage}

/-- A session that is with its worker is attended to. -/
theorem attended_live {progress : Progress} (hsplit : messages = sent ++ pending) (live : p.Live)
    (hposting : pending ≠ [] → progress = .posting pending)
    (hawaiting : ∀ deadline, progress = .awaiting deadline → pending = [])
    (hdelivers : (Phase.live p progress).Delivers (queued ++ handed (opened entryPoint sent))
      taken) :
    Attended r entryPoint messages queued taken ⟨r, entryPoint, .live p progress⟩
      (opened entryPoint sent) := by
  have hhanded : handed (opened entryPoint sent) = sent := by
    have h := handed_opened entryPoint sent []
    rwa [List.append_nil, show handed [] = [] from rfl, List.append_nil] at h
  refine {
    asked_once := ?_
    ended_once := ?_
    terminations := ⟨p, rfl, live.unended⟩
    handed_prefix := ⟨pending, by rw [hhanded, hsplit]⟩
    handed_all := ?_
    result := fun _ _ h => nomatch h
    undelivered := ?_
    read := hdelivers.inOrder
    unread := fun _ hp => Phase.Delivers.whole hdelivers hp }
  · rw [← List.append_nil (opened entryPoint sent)]
    exact asked_opened entryPoint sent []
  · rw [← List.append_nil (opened entryPoint sent)]
    exact count_terminated_opened entryPoint sent []
  · intro p' deadline hphase
    cases hphase
    rw [hhanded, hsplit, hawaiting deadline rfl, List.append_nil]
  · intro p' m rest hp _ hclosed heq time later
    cases hp
    rw [hhanded, hsplit] at heq
    have hpending : pending = m :: rest := (List.append_cancel_left heq).symm
    have hprogress := hposting (by rw [hpending]; exact List.cons_ne_nil m rest)
    rw [hprogress, hpending]
    exact result?_of_closed rfl hclosed live time later

/-- A session that is over was attended to, if its last events are its result and the ending. -/
theorem attended_over {outcome : Outcome} {last : List Event} (now : Nat)
    (hsplit : messages = sent ++ pending) (spent : p.Spent) (hasked : asked last = [])
    (hhanded : handed last = []) (hended : last.count .terminated = 1)
    (why : (outcome = .answered ∧ pending = []) ∨ Unanswered r pending outcome)
    (hdelivers : (Phase.over (some p) now outcome).Delivers
      (queued ++ handed (opened entryPoint sent ++ last)) taken) :
    Attended r entryPoint messages queued taken ⟨r, entryPoint, .over (some p) now outcome⟩
      (opened entryPoint sent ++ last) := by
  have hsent : handed (opened entryPoint sent ++ last) = sent := by
    rw [handed_opened, hhanded, List.append_nil]
  refine {
    asked_once := by rw [asked_opened, hasked]
    ended_once := by rw [count_terminated_opened, hended]; rfl
    terminations := ⟨p, rfl, spent.once⟩
    handed_prefix := ⟨pending, by rw [hsent, hsplit]⟩
    handed_all := fun _ _ h => nomatch h
    result := ?_
    undelivered := fun _ _ _ _ h => nomatch h
    read := hdelivers.inOrder
    unread := fun _ hp => Phase.Delivers.whole hdelivers hp }
  intro time outcome' hresult
  cases hresult
  rw [hsent, hsplit]
  obtain ⟨rfl, rfl⟩ | why := why
  · exact (List.append_nil sent).symm
  · cases why with
    | abandoned => trivial
    | undelivered m rest => exact .inr ⟨m, rest, rfl, rfl⟩
    | disconnected => exact .inl ⟨(List.append_nil sent).symm, .inl rfl⟩
    | timedOut => exact .inl ⟨(List.append_nil sent).symm, .inr rfl⟩

/-- A session that shows the spawning of its worker is attended to. -/
theorem Life.attended {phase : Phase} {events : List Event} (life : Life r entryPoint phase events)
    (hspawned : (entryPoint, true) ∈ asked events) (hall : r.messages = .ok messages)
    (hdelivers : phase.Delivers (queued ++ handed events) taken) :
    Attended r entryPoint messages queued taken ⟨r, entryPoint, phase⟩ events := by
  have hsplit : ∀ {messages'}, r.messages = .ok messages' → messages = messages' := by
    intro messages' h
    rw [hall] at h
    cases h
    rfl
  cases life with
  | unopened | unwanted | invalid => cases hspawned
  | unspawned => simp [asked] at hspawned
  | posting h live => exact attended_live (hsplit h) live (fun _ => rfl) nofun hdelivers
  | @awaiting p messages' deadline h live =>
    have hnone : messages = messages' ++ [] := by rw [hsplit h, List.append_nil]
    exact attended_live hnone live (fun h => absurd rfl h) (fun _ _ => rfl) hdelivers
  | @answered p messages' now h spent =>
    have hnone : messages = messages' ++ [] := by rw [hsplit h, List.append_nil]
    exact attended_over now hnone spent rfl rfl rfl (.inl ⟨rfl, rfl⟩) hdelivers
  | unanswered now h why spent =>
    exact attended_over now (hsplit h) spent rfl rfl rfl (.inr why) hdelivers

end

/-- The prompts are the messages of a session, behind its options. -/
theorem messages_eq (r : RoundTrip) :
    r.messages = match Prompt.ofMessageType? r.exchange.prompt with
      | some p => .ok (r.config.toList.map .config ++ [.prompt p])
      | none => .error (.invalidPrompt r.exchange.prompt) := rfl

theorem messages_of_prompt {r : RoundTrip} {p : Prompt}
    (h : r.exchange.prompt = p.messageType) :
    r.messages = .ok (r.config.toList.map .config ++ [.prompt p]) := by
  unfold RoundTrip.messages
  rw [h]
  cases p <;> rfl

/-- A session whose opening leads to an end has nothing else to show. -/
theorem run_of_enter_over {r : RoundTrip} {entryPoint : String} {now : Nat}
    {spawning : Except SessionError Link} {time : Nat} {outcome : Outcome} {events : List Event}
    (h : enter r entryPoint now spawning = (.over none time outcome, events))
    (moves : List Move) :
    (run ⟨r, entryPoint, .unopened⟩ (.opening now spawning :: moves)).1.result? =
        some (time, outcome) ∧
      (run ⟨r, entryPoint, .unopened⟩ (.opening now spawning :: moves)).2 = events := by
  have hstep : step ⟨r, entryPoint, .unopened⟩ (.opening now spawning) =
      (⟨r, entryPoint, .over none time outcome⟩, events) := by
    show (({ request := r, entryPoint, phase := (enter r entryPoint now spawning).1 } : Session),
      (enter r entryPoint now spawning).2) = _
    rw [h]
  rw [run_cons, hstep]
  refine ⟨result?_run rfl moves, ?_⟩
  show events ++ (run _ moves).2 = events
  rw [events_run_of_over rfl moves, List.append_nil]

/-- A session that has spawned its worker attends to it. -/
theorem attended_run (hmessages : r.messages = .ok messages) (entryPoint : String) (now : Nat)
    (link : Link) (moves : List Move) :
    Attended r entryPoint messages link.prompts.queue
      (taken ⟨r, entryPoint, .unopened⟩ (.opening now (.ok link) :: moves))
      (run ⟨r, entryPoint, .unopened⟩ (.opening now (.ok link) :: moves)).1
      (run ⟨r, entryPoint, .unopened⟩ (.opening now (.ok link) :: moves)).2 := by
  have hlife : Life r entryPoint
      (run ⟨r, entryPoint, .unopened⟩ (.opening now (.ok link) :: moves)).1.phase
      (run ⟨r, entryPoint, .unopened⟩ (.opening now (.ok link) :: moves)).2 :=
    Life.run (s := ⟨r, entryPoint, .unopened⟩) .unopened (.opening now (.ok link) :: moves)
  have hspawned : (entryPoint, true) ∈
      asked (run ⟨r, entryPoint, .unopened⟩ (.opening now (.ok link) :: moves)).2 := by
    rw [run_cons, step_opening hmessages]
    exact List.mem_cons_self
  rw [run_fst]
  exact hlife.attended hspawned hmessages (delivers_run_opening hmessages entryPoint now link moves)

/-- **The life of a session**, from its opening to any point at which it has a result, is dropped
or still goes on. If the type to be sent is no prompt, no worker is asked for. Otherwise one is
asked for once; if there is none, its error is the result and nothing is sent; and if there is one,
the session is attended to: its worker is ended exactly once, and it was handed a first part of the
options and the prompt, which it takes in order. -/
theorem run_life (r : RoundTrip) (entryPoint : String) (now : Nat)
    (spawning : Except SessionError Link) (moves : List Move) :
    let s := (run ⟨r, entryPoint, .unopened⟩ (.opening now spawning :: moves)).1
    let events := (run ⟨r, entryPoint, .unopened⟩ (.opening now spawning :: moves)).2
    match Prompt.ofMessageType? r.exchange.prompt, spawning with
    | none, _ =>
      s.result? = some (now, .failed (.invalidPrompt r.exchange.prompt)) ∧ events = []
    | some _, .error e =>
      s.result? = some (now, .failed e) ∧ events = [.spawned entryPoint false]
    | some p, .ok link =>
      Attended r entryPoint (r.config.toList.map .config ++ [.prompt p]) link.prompts.queue
        (taken ⟨r, entryPoint, .unopened⟩ (.opening now spawning :: moves)) s events := by
  intro s events
  have hmessages := messages_eq r
  cases hprompt : Prompt.ofMessageType? r.exchange.prompt with
  | none =>
    rw [hprompt] at hmessages
    exact run_of_enter_over (by simp only [enter, hmessages]) moves
  | some p =>
    rw [hprompt] at hmessages
    cases spawning with
    | error e => exact run_of_enter_over (enter_error hmessages now e) moves
    | ok link => exact attended_run hmessages entryPoint now link moves

end Session

end Invigilation
