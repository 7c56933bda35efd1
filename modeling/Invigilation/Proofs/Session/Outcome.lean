import Invigilation.Proofs.Session.Wait
import Mathlib.Data.List.Induction
import Mathlib.Data.List.TakeWhile

/-!
# The outcome of a round trip

A worker may not come to be, it may have given its receiving end up, or it follows a script and
reads. The outcome of a round trip and its time are determined in each case. With a timeout there is
always an outcome, and it is no later than the deadline.

- `Script.admitted`: the acts of a worker whose replies meet a channel that is full at some point.
- `RoundTrip.outcome?`: **the outcome of a round trip with any worker**, and its time.
- `Session.result?_course_outcome`: a session comes to it.
- `Session.exists_turn_of_awaiting`, `Session.isOver_of_due`: in whatever order things happen, the
  deadline is that of the turn in which the wait began, and it ends the wait.
-/

namespace Invigilation

open Link (FarStep)

/-! ## Replies that do not fit -/

namespace Script

/-- What a channel with some room admits of the acts of a worker: a reply that finds the channel
full is lost. -/
def admitted (room : Nat) : List FarStep → List FarStep
  | [] => []
  | f :: rest =>
    match f.reply?, room with
    | some _, 0 => admitted 0 rest
    | some _, room + 1 => f :: admitted room rest
    | none, room => f :: admitted room rest

/-- A script on a channel that is full after so many replies. -/
def fitting (script : Script) (capacity : Nat) : Script :=
  { script with upfront := admitted capacity script.upfront }

variable {room : Nat} {fs : List FarStep}

theorem length_replies_admitted (room : Nat) (fs : List FarStep) :
    ((admitted room fs).filterMap FarStep.reply?).length ≤ room := by
  induction fs generalizing room with
  | nil => exact Nat.zero_le room
  | cons f rest ih =>
    unfold admitted
    cases hreply : f.reply? with
    | none =>
      dsimp only
      rw [List.filterMap_cons_none hreply]
      exact ih room
    | some m =>
      cases room with
      | zero => exact ih 0
      | succ room =>
        dsimp only
        rw [List.filterMap_cons_some hreply]
        exact Nat.succ_le_succ (ih room)

/-- Only replies can be lost. -/
theorem mem_admitted_iff {f : FarStep} (h : f.reply? = none) :
    f ∈ admitted room fs ↔ f ∈ fs := by
  induction fs generalizing room with
  | nil => exact Iff.rfl
  | cons g rest ih =>
    unfold admitted
    cases hreply : g.reply? with
    | none =>
      dsimp only
      rw [List.mem_cons, List.mem_cons, ih]
    | some m =>
      have hne : f ≠ g := by
        rintro rfl
        rw [h] at hreply
        cases hreply
      cases room with
      | zero => simp [hne, ih]
      | succ room => simp [hne, ih]

end Script

/-- A reply that finds the channel full, or comes after the worker has left, changes nothing. -/
theorem Port.far_reply_of_lost {p : Port} (hadmits : p.replies.closed = false)
    (h : p.replies.senderGone = true ∨ p.replies.capacity ≤ p.replies.queue.length)
    (m : WorkerMessage) : (p.far (.reply m)).1 = p := by
  simp only [Port.far, Link.far]
  by_cases hgone : p.replies.senderGone = true
  · rw [if_pos hgone]
  · have hfull : ¬ p.replies.hasRoom = true := by
      simpa [Channel.hasRoom] using h.resolve_left hgone
    rw [if_neg hgone]
    unfold Channel.send
    rw [if_neg (by simp [hadmits]), if_neg hfull]

/-- The replies that do not fit leave no trace. -/
theorem Port.farAll_admitted {p : Port} {room : Nat} (hadmits : p.replies.closed = false)
    (h : p.replies.senderGone = true ∨ p.replies.queue.length + room = p.replies.capacity)
    (fs : List FarStep) : p.farAll (Script.admitted room fs) = p.farAll fs := by
  -- the room is what the channel has left, as long as the worker has not left
  induction fs generalizing p room with
  | nil => rfl
  | cons f rest ih =>
    obtain ⟨hclosed, hcapacity⟩ := p.replies_far_kept f
    have hadmits' : (p.far f).1.replies.closed = false := by rw [hclosed]; exact hadmits
    show _ = (p.far f).1.farAll rest
    unfold Script.admitted
    cases hreply : f.reply? with
    | none =>
      refine ih (p := (p.far f).1) hadmits' ?_
      by_cases hleave : f = .closeReplies
      · subst hleave
        exact .inl rfl
      · rw [replies_far_of_other hreply hleave]
        exact h
    | some m =>
      obtain rfl : f = .reply m := by
        cases f with
        | reply m' => cases hreply; rfl
        | takePrompt | closeReplies | closePrompts => cases hreply
      cases room with
      | zero =>
        have hlost := far_reply_of_lost hadmits (h.imp_right (by omega)) m
        rw [hlost]
        exact ih hadmits h
      | succ room =>
        refine ih (p := (p.far (.reply m)).1) hadmits' ?_
        by_cases hgone : p.replies.senderGone = true
        · rw [far_reply_of_lost hadmits (.inl hgone) m]
          exact .inl hgone
        · have hroom := h.resolve_left hgone
          rw [replies_far_reply (Bool.eq_false_iff.mpr hgone) hadmits (by omega) m]
          refine .inr ?_
          simp only [List.length_append, List.length_singleton]
          omega

/-- A receiving end that was given up stays so. -/
theorem Port.closed_farAll {p : Port} {fs : List FarStep}
    (h : p.prompts.closed = true ∨ .closePrompts ∈ fs) : (p.farAll fs).prompts.closed = true := by
  induction fs generalizing p with
  | nil => exact h.resolve_right List.not_mem_nil
  | cons f rest ih =>
    have hkept : p.prompts.closed = true → (p.far f).1.prompts.closed = true := by
      intro hclosed
      cases f with
      | closePrompts => rfl
      | closeReplies => exact hclosed
      | takePrompt =>
        simp only [Port.far, Link.far]
        rw [if_pos hclosed]
        exact hclosed
      | reply m =>
        simp only [Port.far, Link.far]
        split <;> exact hclosed
    refine ih (p := (p.far f).1) ?_
    rcases h with hclosed | hmem
    · exact .inl (hkept hclosed)
    · rcases List.mem_cons.mp hmem with rfl | hmem
      · exact .inl rfl
      · exact .inr hmem

theorem Port.Live.farAll {p : Port} (live : p.Live) (fs : List FarStep) : (p.farAll fs).Live := by
  induction fs generalizing p with
  | nil => exact live
  | cons f rest ih => exact ih (live.far f)

/-! ## The outcome -/

/-- The outcome of a round trip and its time, when spawning the worker comes to an error or a
script, on channels of some room. Without one, the round trip goes on. -/
def RoundTrip.outcome? (r : RoundTrip) (capacity : Nat) :
    Except SessionError Script → Option (Nat × Session.Outcome)
  | .error e => some (0, .failed e)
  | .ok script =>
    if .closePrompts ∈ script.upfront then
      -- the first message cannot be delivered
      some (0, .failed
        (.sendFailed (some (if r.config.isSome then .config else r.exchange.prompt))))
    else r.verdict (script.fitting capacity)

namespace Session

variable {s : Session}

/-- Replies that do not fit make no difference to a session. -/
theorem run_play_fitting {pending : List HostMessage} {capacity : Nat}
    (hphase : s.phase = .live (.fresh capacity) (.posting pending)) (script : Script)
    (patience : Nat) :
    (s.run ((script.fitting capacity).play patience s)).1 =
      (s.run (script.play patience s)).1 := by
  have hport : (Port.fresh capacity).farAll (Script.admitted capacity script.upfront) =
      (Port.fresh capacity).farAll script.upfront :=
    Port.farAll_admitted rfl (.inr (Nat.zero_add capacity)) _
  have hacted : (s.run ((Script.admitted capacity script.upfront).map .far)).1 =
      (s.run (script.upfront.map .far)).1 := by
    rw [run_fst, run_far hphase, hport, run_fst s (script.upfront.map .far), run_far hphase]
  unfold Script.play Script.fitting
  dsimp only
  rw [run_append, run_append, run_append, run_append, hacted]

/-- The host's first turn with a worker that reads no more is its last. -/
theorem run_play_closed {p : Port} {m : HostMessage} {pending : List HostMessage}
    (hphase : s.phase = .live p (.posting (m :: pending))) (live : p.Live) {script : Script}
    (hclosed : .closePrompts ∈ script.upfront) (patience : Nat) :
    (s.run (script.play patience s)).1.result? =
      some (0, .failed (.sendFailed m.messageType?)) := by
  have hacting := run_far hphase script.upfront
  have hreads : (p.farAll script.upfront).prompts.closed = true :=
    Port.closed_farAll (.inr hclosed)
  have hfirst : ∃ later, (s.run (script.upfront.map .far)).1.settling 0 = .host 0 :: later := by
    unfold settling backlog
    rw [hacting]
    exact ⟨_, rfl⟩
  obtain ⟨later, hlater⟩ := hfirst
  unfold Script.play
  dsimp only
  rw [run_append, run_append, hlater]
  exact result?_run (result?_of_closed hacting hreads (live.farAll _) 0 later) _

/-- The course of a session begins with its opening. -/
theorem course_of_error {spawner : Spawner} {e : SessionError}
    (h : spawner s.entryPoint = .error e) (patience : Nat) :
    s.course spawner patience = [.opening 0 (.error e)] := by
  unfold course
  rw [h]

theorem course_of_ok {spawner : Spawner} {far : FarEnd} (h : spawner s.entryPoint = .ok far)
    (patience : Nat) :
    s.course spawner patience = .opening 0 (.ok (.fresh far.capacity)) ::
      far.play patience (s.step (.opening 0 (.ok (.fresh far.capacity)))).1 := by
  unfold course
  rw [h]

/-- The first message is the options, if there are some. -/
theorem exists_first_message (prompt : Prompt) (config : Option Json) :
    ∃ m pending, config.toList.map HostMessage.config ++ [.prompt prompt] = m :: pending ∧
      m.messageType? = some (if config.isSome then .config else prompt.messageType) := by
  cases config with
  | none => exact ⟨_, _, rfl, rfl⟩
  | some options => exact ⟨_, _, rfl, rfl⟩

/-- **A session comes to the outcome of its round trip**, whatever its worker is like: spawning it
fails, it reads no more, or it follows a script. If the caller's patience ends before there is an
outcome, the session was still going on. -/
theorem result?_course_outcome (prompt : Prompt) (response : MessageType) (timeout : Option Nat)
    (config : Option Json) (entryPoint : String)
    (behaviour : String → Except SessionError Script) {capacity : Nat}
    (hroom : config.toList.length + 1 ≤ capacity) (patience : Nat) :
    let r : RoundTrip := ⟨⟨prompt.messageType, response⟩, timeout, config⟩
    let s : Session := ⟨r, entryPoint, .unopened⟩
    (s.run (s.course (fun name => (behaviour name).map (·.farEnd capacity)) patience)).1.result? =
      some (within patience (r.outcome? capacity (behaviour entryPoint))) := by
  intro r s
  have hmessages : r.messages = .ok (config.toList.map .config ++ [.prompt prompt]) :=
    messages_of_prompt rfl
  cases hworker : behaviour entryPoint with
  | error e =>
    rw [course_of_error (s := s) (e := e) (by simp [s, hworker, Except.map])]
    rw [show r.outcome? capacity (.error e) = some (0, .failed e) from rfl,
      within_of_le (Nat.zero_le patience)]
    exact (run_of_enter_over (enter_error hmessages 0 e) []).1
  | ok script =>
    have hphase : (s.step (.opening 0 (.ok (.fresh capacity)))).1.phase =
        .live (.fresh capacity) (.posting (config.toList.map .config ++ [.prompt prompt])) :=
      congrArg (·.1.phase) (step_opening hmessages entryPoint 0 (.fresh capacity))
    have hspawned : (behaviour s.entryPoint).map (·.farEnd capacity) =
        .ok (script.farEnd capacity) := by
      simp [s, hworker, Except.map]
    rw [course_of_ok hspawned]
    show ((s.step (.opening 0 (.ok (.fresh capacity)))).1.run
      (script.play patience (s.step (.opening 0 (.ok (.fresh capacity)))).1)).1.result? = _
    simp only [RoundTrip.outcome?]
    by_cases hclosed : .closePrompts ∈ script.upfront
    · rw [if_pos hclosed, within_of_le (Nat.zero_le patience)]
      obtain ⟨m, pending, hfirst, htype⟩ := exists_first_message prompt config
      rw [hfirst] at hphase
      have hresult := run_play_closed hphase (Port.live_ofLink _) hclosed patience
      rw [htype] at hresult
      exact hresult
    · rw [if_neg hclosed, ← run_play_fitting hphase]
      refine run_play hphase ?_ (by omega) (by simpa using hroom) ?_ patience
      · exact fun hmem => hclosed ((Script.mem_admitted_iff rfl).mp hmem)
      · exact Script.length_replies_admitted _ _

/-- A session asks for its worker once, and if it is over, has ended the worker that it obtained. -/
theorem asked_course {r : RoundTrip} {p : Prompt} (hprompt : r.exchange.prompt = p.messageType)
    (entryPoint : String) (spawner : Spawner) (patience : Nat) :
    let s : Session := ⟨r, entryPoint, .unopened⟩
    (s.run (s.course spawner patience)).1.isOver = true →
    asked (s.run (s.course spawner patience)).2 = [(entryPoint, (spawner entryPoint).isOk)] ∧
      (s.run (s.course spawner patience)).2.count .terminated =
        if (spawner entryPoint).isOk then 1 else 0 := by
  intro s hover
  have hmessages := messages_of_prompt hprompt
  cases hspawner : spawner entryPoint with
  | error e =>
    rw [course_of_error (s := s) hspawner, (run_of_enter_over (enter_error hmessages 0 e) []).2]
    exact ⟨rfl, rfl⟩
  | ok far =>
    rw [course_of_ok (s := s) hspawner] at hover ⊢
    obtain ⟨later, hlater⟩ : ∃ later, later =
        far.play patience (s.step (.opening 0 (.ok (.fresh far.capacity)))).1 := ⟨_, rfl⟩
    rw [← hlater] at hover ⊢
    have hattended := attended_run hmessages entryPoint 0 (.fresh far.capacity) later
    exact ⟨hattended.asked_once, hattended.ended_once.trans (if_pos hover)⟩

/-! ## What a session shows, and when it ends -/

/-- A session asks for a worker once at most. -/
theorem Life.asked_once {r : RoundTrip} {entryPoint : String} {phase : Phase}
    {events : List Event} (life : Life r entryPoint phase events) :
    asked events = [] ∨ ∃ obtained, asked events = [(entryPoint, obtained)] := by
  have hopened : ∀ sent : List HostMessage,
      asked (opened entryPoint sent) = [(entryPoint, true)] := by
    intro sent
    rw [← List.append_nil (opened entryPoint sent), asked_opened]
    rfl
  cases life with
  | unopened | unwanted | invalid => exact .inl rfl
  | unspawned => exact .inr ⟨false, rfl⟩
  | posting h live | awaiting deadline h live => exact .inr ⟨true, hopened _⟩
  | answered now h spent | unanswered now h why spent =>
    exact .inr ⟨true, by rw [asked_opened]; rfl⟩

/-- A session shows the response if it was answered, and only then. -/
theorem Life.matched_iff {r : RoundTrip} {entryPoint : String} {phase : Phase}
    {events : List Event} (life : Life r entryPoint phase events) :
    .matched r.exchange.response ∈ events ↔ ∃ port time, phase = .over port time .answered := by
  have hopened : ∀ sent : List HostMessage, ∀ type, .matched type ∉ opened entryPoint sent := by
    intro sent type
    simp [opened]
  cases life with
  | unopened | unwanted | invalid | unspawned => simp
  | posting h live | awaiting deadline h live => simp [hopened]
  | answered now h spent => simp
  | unanswered now h why spent => cases why <;> simp [hopened]

/-- When a move of a session happens; a worker acts at the time that it is. -/
def Move.time? : Move → Option Nat
  | .opening now _ | .host now | .abandon now => some now
  | .far _ => none

/-- The move that ends a session happens at the time at which it ends. -/
theorem time?_of_result {s : Session} {m : Move} {time : Nat} {outcome : Outcome}
    (still : s.result? = none) (h : (s.step m).1.result? = some (time, outcome)) :
    m.time? = some time := by
  obtain ⟨r, entryPoint, phase⟩ := s
  obtain ⟨port, hphase⟩ := phase_of_result? h
  change (stepPhase r entryPoint phase m).1 = _ at hphase
  cases phase with
  | «over» => cases still
  | unopened =>
    cases m with
    | host | far => cases hphase
    | abandon now => cases hphase; rfl
    | opening now spawning =>
      simp only [stepPhase, enter] at hphase
      split at hphase
      · cases hphase; rfl
      · split at hphase <;> cases hphase
        rfl
  | live p progress =>
    cases progress with
    | posting pending =>
      cases m with
      | opening | far => cases hphase
      | abandon now => cases hphase; rfl
      | host now =>
        cases pending with
        | nil => cases hphase
        | cons m rest =>
          simp only [stepPhase, post] at hphase
          split at hphase <;> cases hphase
          rfl
    | awaiting deadline =>
      cases m with
      | opening | far => cases hphase
      | abandon now => cases hphase; rfl
      | host now =>
        simp only [stepPhase, await] at hphase
        split at hphase
        · split at hphase <;> cases hphase
          rfl
        · cases hphase; rfl
        · split at hphase <;> cases hphase
          rfl

/-! ## Reading an outcome -/

/-- A response is queued in time if the worker replies with it before it leaves. -/
theorem isSome_answeredAt?_iff {response : MessageType} {acts : List (Nat × FarStep)} :
    (answeredAt? response acts).isSome ↔
      ∃ before time f after, acts = before ++ (time, f) :: after ∧ f.answers response = true ∧
        ∀ act ∈ before, act.2 ≠ .closeReplies := by
  unfold answeredAt?
  rw [Option.isSome_map, List.find?_isSome]
  constructor
  · rintro ⟨act, hmem, hanswers⟩
    -- the acts up to the worker's leaving begin the acts
    obtain ⟨before, after, hsplit⟩ := List.append_of_mem hmem
    obtain ⟨later, hlater⟩ := List.takeWhile_prefix (l := acts) (fun act => act.2 ≠ .closeReplies)
    refine ⟨before, act.1, act.2, after ++ later, ?_, hanswers, fun act' hact' => ?_⟩
    · rw [← hlater, hsplit, List.append_assoc]
      rfl
    · have hin : act' ∈ acts.takeWhile (fun act => act.2 ≠ .closeReplies) := by
        rw [hsplit]
        exact List.mem_append_left _ hact'
      simpa using List.mem_takeWhile_imp hin
  · rintro ⟨before, time, f, after, rfl, hanswers, hstays⟩
    have hopen : f ≠ .closeReplies := by
      rintro rfl
      cases hanswers
    refine ⟨(time, f), ?_, hanswers⟩
    rw [List.takeWhile_append_of_pos (by simpa using hstays)]
    simp [hopen]

/-- What a worker does in time is done by the deadline. -/
theorem le_of_mem_heard {script : Script} {d : Nat} {act : Nat × FarStep}
    (h : act ∈ script.heard (some d)) : act.1 ≤ d := by
  rcases List.mem_append.mp h with hupfront | hlater
  · obtain ⟨f, -, rfl⟩ := List.mem_map.mp hupfront
    exact Nat.zero_le d
  · have hbefore := (List.mem_filter.mp hlater).2
    exact Nat.le_of_lt (by simpa using hbefore)

/-- A round trip with a timeout has an outcome, no later than that. It is answered if and only if
the worker comes to be, reads, and replies with the response in time and before it leaves. -/
theorem outcome?_of_timeout {r : RoundTrip} {d : Nat} (h : r.timeout = some d) (capacity : Nat)
    (worker : Except SessionError Script) :
    ∃ time outcome, r.outcome? capacity worker = some (time, outcome) ∧ time ≤ d ∧
      outcome ≠ .abandoned ∧
      (outcome = .answered ↔ ∃ script, worker = .ok script ∧ .closePrompts ∉ script.upfront ∧
        (answeredAt? r.exchange.response ((script.fitting capacity).heard (some d))).isSome) := by
  cases worker with
  | error e => exact ⟨0, .failed e, rfl, Nat.zero_le d, by simp, by simp⟩
  | ok script =>
    simp only [RoundTrip.outcome?]
    by_cases hclosed : .closePrompts ∈ script.upfront
    · rw [if_pos hclosed]
      exact ⟨0, _, rfl, Nat.zero_le d, by simp, by simp [hclosed]⟩
    · rw [if_neg hclosed]
      unfold RoundTrip.verdict verdictOf
      rw [h]
      cases hanswer :
        answeredAt? r.exchange.response ((script.fitting capacity).heard (some d)) with
      | some time =>
        obtain ⟨act, hfind, rfl⟩ := Option.map_eq_some_iff.mp hanswer
        have hmem := (List.takeWhile_prefix _).subset (List.mem_of_find?_eq_some hfind)
        exact ⟨act.1, .answered, rfl, le_of_mem_heard hmem, by simp, by simp [hclosed, hanswer]⟩
      | none =>
        cases hleft : leftAt? ((script.fitting capacity).heard (some d)) with
        | some time =>
          obtain ⟨act, hfind, rfl⟩ := Option.map_eq_some_iff.mp hleft
          have hmem := List.mem_of_find?_eq_some hfind
          exact ⟨act.1, _, rfl, le_of_mem_heard hmem, by simp, by simp [hanswer]⟩
        | none => exact ⟨d, _, rfl, Nat.le_refl d, by simp, by simp [hanswer]⟩

/-! ## The deadline in any order of moves -/

variable {deadline : Option Nat}

/-- A session that waits was waiting, or it begins to wait in a turn of its host that finds nothing
left to send. -/
theorem awaiting_step {p : Port} {m : Move}
    (h : (s.step m).1.phase = .live p (.awaiting deadline)) :
    (∃ p₀, s.phase = .live p₀ (.awaiting deadline)) ∨
      ∃ p₀ now, s.phase = .live p₀ (.posting []) ∧ m = .host now ∧
        deadline = s.request.timeout.map (now + ·) := by
  obtain ⟨r, entryPoint, phase⟩ := s
  change (stepPhase r entryPoint phase m).1 = _ at h
  cases phase with
  | unopened =>
    cases m with
    | host | far | abandon => cases h
    | opening now spawning =>
      simp only [stepPhase, enter] at h
      split at h
      · cases h
      · split at h <;> cases h
  | «over» port time outcome =>
    cases port <;> cases m <;> cases h
  | live p₀ progress =>
    cases progress with
    | awaiting deadline₀ =>
      cases m with
      | opening | far => cases h; exact .inl ⟨_, rfl⟩
      | abandon => cases h
      | host now =>
        simp only [stepPhase, await] at h
        split at h
        · split at h
          · cases h
          · cases h; exact .inl ⟨_, rfl⟩
        · cases h
        · split at h
          · cases h
          · cases h; exact .inl ⟨_, rfl⟩
    | posting pending =>
      cases m with
      | opening | far | abandon => cases h
      | host now =>
        cases pending with
        | nil => cases h; exact .inr ⟨_, _, rfl, rfl, rfl⟩
        | cons m rest =>
          simp only [stepPhase, post] at h
          split at h <;> cases h

/-- The deadline of a session that waits is that of the turn in which the wait began. -/
theorem exists_turn_of_awaiting (hstart : s.phase = .unopened) {moves : List Move} {p : Port}
    (h : (s.run moves).1.phase = .live p (.awaiting deadline)) :
    ∃ before now after, moves = before ++ .host now :: after ∧
      (∃ p₀, (s.run before).1.phase = .live p₀ (.posting [])) ∧
      deadline = s.request.timeout.map (now + ·) := by
  -- by induction on the moves from the last of them back to the turn
  induction moves using List.reverseRecOn generalizing p with
  | nil =>
    rw [show (s.run []).1 = s from rfl, hstart] at h
    cases h
  | append_singleton moves m ih =>
    rw [run_append] at h
    change ((s.run moves).1.step m).1.phase = _ at h
    obtain ⟨p₀, hwaiting⟩ | ⟨p₀, now, hsent, rfl, hdeadline⟩ := awaiting_step h
    · obtain ⟨before, now, after, rfl, hsent, hdeadline⟩ := ih hwaiting
      exact ⟨before, now, after ++ [m], by simp, hsent, hdeadline⟩
    · rw [run_request] at hdeadline
      exact ⟨moves, now, [], rfl, ⟨p₀, hsent⟩, hdeadline⟩

/-- Whether a move is a turn of the host. -/
def Move.isTurn : Move → Bool
  | .host _ => true
  | .opening _ _ | .far _ | .abandon _ => false

/-- Whether a move is a reply of the worker. -/
def Move.isReply : Move → Bool
  | .far (.reply _) => true
  | .opening _ _ | .host _ | .far _ | .abandon _ => false

/-- One step of the worker queues one reply at most. -/
theorem length_replies_far (p : Port) (f : FarStep) :
    (p.far f).1.replies.queue.length ≤
      p.replies.queue.length + if Move.isReply (.far f) then 1 else 0 := by
  cases f with
  | closeReplies | closePrompts => exact Nat.le_refl _
  | takePrompt =>
    rw [Port.replies_far_of_other rfl (by simp)]
    exact Nat.le_refl _
  | reply m =>
    show _ ≤ p.replies.queue.length + 1
    simp only [Port.far, Link.far, Channel.send]
    repeat' split
    all_goals simp

/-- A turn of a waiting host at its deadline ends the wait, or takes one reply. -/
theorem due_step {p : Port} {d now : Nat} (hphase : s.phase = .live p (.awaiting (some d)))
    (hdue : d ≤ now) :
    (s.step (.host now)).1.isOver = true ∨
      ∃ p', (s.step (.host now)).1.phase = .live p' (.awaiting (some d)) ∧
        p'.replies.queue.length + 1 = p.replies.queue.length := by
  have hdue' : (some d).any (· ≤ now) = true := by simpa using hdue
  unfold isOver result?
  rw [phase_step, hphase]
  simp only [stepPhase, await]
  obtain ⟨m, rest, hqueue, heq⟩ | ⟨-, -, heq⟩ | ⟨-, -, heq⟩ := p.receive_cases <;> rw [heq]
  · by_cases hmatch : m.messageType? = some s.request.exchange.response
    · left
      simp only [if_pos hmatch]
      rfl
    · right
      simp only [if_neg hmatch]
      exact ⟨_, rfl, by rw [hqueue]; rfl⟩
  · exact .inl rfl
  · left
    simp only [if_pos hdue']
    rfl

/-- **A wait ends at its deadline.** From then on, each turn of the host takes one reply or ends the
wait, so that it has ended after more turns than there were replies to take. -/
theorem isOver_of_due {p : Port} {d : Nat} (hphase : s.phase = .live p (.awaiting (some d)))
    {moves : List Move} (hdue : ∀ now, .host now ∈ moves → d ≤ now)
    (hturns : p.replies.queue.length + moves.countP Move.isReply < moves.countP Move.isTurn) :
    (s.run moves).1.isOver = true := by
  have hover : ∀ {s' : Session} (later : List Move), s'.isOver = true →
      (s'.run later).1.isOver = true := by
    intro s' later h
    obtain ⟨result, hresult⟩ := Option.isSome_iff_exists.mp h
    exact Option.isSome_iff_exists.mpr ⟨result, result?_run hresult later⟩
  -- what is queued and what is still to come is fewer than the turns that are left
  induction moves generalizing s p with
  | nil => simp at hturns
  | cons m rest ih =>
    rw [List.countP_cons, List.countP_cons] at hturns
    have hdue' : ∀ now, .host now ∈ rest → d ≤ now :=
      fun now hmem => hdue now (List.mem_cons_of_mem m hmem)
    rw [run_cons]
    cases m with
    | opening now spawning =>
      have hstep : (s.step (.opening now spawning)).1.phase = .live p (.awaiting (some d)) := by
        rw [phase_step, hphase]
        rfl
      exact ih hstep hdue' (by simpa [Move.isReply, Move.isTurn] using hturns)
    | abandon now =>
      refine hover rest ?_
      unfold isOver result?
      rw [phase_step, hphase]
      rfl
    | far f =>
      have hstep : (s.step (.far f)).1.phase = .live (p.far f).1 (.awaiting (some d)) := by
        rw [phase_step, hphase]
        rfl
      have hlength := length_replies_far p f
      have hturn : Move.isTurn (.far f) = false := rfl
      rw [hturn] at hturns
      refine ih hstep hdue' ?_
      simp only [Bool.false_eq_true, if_false] at hturns
      omega
    | host now =>
      have hreply : Move.isReply (.host now) = false := rfl
      have hturn : Move.isTurn (.host now) = true := rfl
      rw [hreply, hturn] at hturns
      simp only [Bool.false_eq_true, if_false, if_true] at hturns
      obtain hend | ⟨p', hstep, hlength⟩ := due_step hphase (hdue now List.mem_cons_self)
      · exact hover rest hend
      · exact ih hstep hdue' (by omega)

end Session

end Invigilation
