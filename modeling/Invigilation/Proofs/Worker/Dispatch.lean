import Mathlib.Data.List.Induction
import Invigilation.Proofs.Worker.Dealings

/-!
# What a worker calls

A worker calls its factory and the hooks of its handlers. Which calls it makes, and in which order,
is decided by the messages it receives and by nothing else: neither by how hooks complete, nor by
whether its responses can be posted, nor by what the factory answers. What becomes of a hook that
runs is not touched by the messages that come after its prompt.

- `Worker.log`: the calls that belong to an inbox.
- `Service.admitted`: the messages that the host could queue for the worker.
- `Service.Dispatched`: what holds of the calls at every point of a run.
- `Service.early`, `Service.verdicts`: what becomes of the hooks that run at some point, and who
  decides on it.
- `Service.dispatch_turns`: **the calls depend on the inbox alone**, message by message, and any two
  runs with one inbox make the same calls.
-/

namespace Invigilation

/-- The options of a message that configures the worker. -/
def HostMessage.options? : HostMessage → Option Json
  | .config options => some options
  | .prompt _ | .unknown => none

/-- The prompt of a message, if it is one. -/
def HostMessage.prompt? : HostMessage → Option Prompt
  | .prompt p => some p
  | .config _ | .unknown => none

namespace Worker

/-! ## The calls of an inbox -/

/-- Whether an event is a call of the factory or of a hook. -/
def Event.isCall : Event → Bool
  | .built _ | .called _ _ => true
  | .succeeded _ | .failed _ | .posted _ | .lost _ => false

/-- The options that the factory was called with. -/
def Event.built? : Event → Option Json
  | .built options => some options
  | _ => none

/-- The prompt whose hook was called. -/
def Event.called? : Event → Option Prompt
  | .called _ p => some p
  | _ => none

/-- The calls among some events. -/
def calls (events : List Event) : List Event :=
  events.filter Event.isCall

/-- The options in force after some messages: those of the last configuration. -/
def optionsAfter (inbox : List HostMessage) : Json :=
  (inbox.filterMap HostMessage.options?).getLast?.getD (.obj [])

/-- The calls of a message that comes after others. A configuration builds a handler from its
options, and a prompt calls its hook on the handler that was built last. -/
def callsOf (before : List HostMessage) : HostMessage → List Event
  | .config options => [.built options]
  | .prompt p => [.called (optionsAfter before) p]
  | .unknown => []

/-- The calls of messages that come after others. -/
def callsAfter (before : List HostMessage) : List HostMessage → List Event
  | [] => []
  | m :: rest => callsOf before m ++ callsAfter (before ++ [m]) rest

/-- The calls of an inbox: a handler is built from empty options before the first message. -/
def log (inbox : List HostMessage) : List Event :=
  .built (.obj []) :: callsAfter [] inbox

theorem calls_append (events later : List Event) :
    calls (events ++ later) = calls events ++ calls later :=
  List.filter_append events later

theorem optionsAfter_snoc (inbox : List HostMessage) (m : HostMessage) :
    optionsAfter (inbox ++ [m]) = Service.reconfigured (optionsAfter inbox) m := by
  cases m <;> simp [optionsAfter, Service.reconfigured, HostMessage.options?]

theorem callsAfter_snoc (before inbox : List HostMessage) (m : HostMessage) :
    callsAfter before (inbox ++ [m]) = callsAfter before inbox ++ callsOf (before ++ inbox) m := by
  induction inbox generalizing before with
  | nil => simp [callsAfter]
  | cons m' rest ih =>
    show callsOf before m' ++ callsAfter (before ++ [m']) (rest ++ [m]) = _ ++ _ ++ _
    rw [ih, List.append_assoc, List.append_assoc, List.singleton_append]

theorem log_snoc (inbox : List HostMessage) (m : HostMessage) :
    log (inbox ++ [m]) = log inbox ++ callsOf inbox m :=
  congrArg (List.cons _) (callsAfter_snoc [] inbox m)

/-- The calls of an inbox begin those of every inbox that it begins. -/
theorem log_mono {inbox later : List HostMessage} (h : inbox <+: later) :
    log inbox <+: log later := by
  obtain ⟨rest, rfl⟩ := h
  induction rest using List.reverseRecOn with
  | nil => simp
  | append_singleton rest m ih =>
    rw [← List.append_assoc, log_snoc]
    exact ih.trans (List.prefix_append _ _)

/-- The factory is called with empty options and then with those of each configuration. -/
theorem filterMap_built_log (inbox : List HostMessage) :
    (log inbox).filterMap Event.built? = .obj [] :: inbox.filterMap HostMessage.options? := by
  induction inbox using List.reverseRecOn with
  | nil => rfl
  | append_singleton inbox m ih =>
    rw [log_snoc, List.filterMap_append, ih, List.filterMap_append]
    cases m <;> rfl

/-- A hook is called for each prompt, once and in their order. -/
theorem filterMap_called_log (inbox : List HostMessage) :
    (log inbox).filterMap Event.called? = inbox.filterMap HostMessage.prompt? := by
  induction inbox using List.reverseRecOn with
  | nil => rfl
  | append_singleton inbox m ih =>
    rw [log_snoc, List.filterMap_append, ih, List.filterMap_append]
    cases m <;> rfl

variable {η : Type} {w : Worker η}

/-- The completion of a hook and the leaving of a response call nothing, and change neither the
handler nor how far the loop is. -/
structure Calm (w : Worker η) (r : Worker η × List Event) : Prop where
  options : r.1.options = w.options
  started : r.1.started = w.started
  stopped : r.1.stopped = w.stopped
  calls : Worker.calls r.2 = []

theorem calm_complete (w : Worker η) (place : Nat) (succeeds : Bool) :
    Calm w (w.complete place succeeds) := by
  unfold Worker.complete
  split
  · exact ⟨rfl, rfl, rfl, rfl⟩
  · cases succeeds <;> exact ⟨rfl, rfl, rfl, rfl⟩

theorem calm_post (w : Worker η) (taken : Bool) : Calm w (w.post taken) := by
  unfold Worker.post
  split
  · exact ⟨rfl, rfl, rfl, rfl⟩
  · cases taken <;> exact ⟨rfl, rfl, rfl, rfl⟩

/-- A worker with the options of its inbox makes the calls of the next message. -/
theorem calls_receive {inbox : List HostMessage}
    (h : w.options = optionsAfter inbox) (now : Nat) (m : HostMessage) :
    calls (w.receive now m).2 = callsOf inbox m := by
  cases m with
  | config | unknown => rfl
  | prompt p =>
    show [Event.called w.options p] = [.called (optionsAfter inbox) p]
    rw [h]

end Worker

namespace Service

variable {η : Type} {s : Service η}

/-! ## What the host queues -/

/-- The message that a step of the host's side puts into the queue. -/
def admission (l : Link) : Link.NearStep → List HostMessage
  | .send m => if (l.prompts.send m).2 = .sent then [m] else []
  | .leave | .receive | .close | .discard => []

/-- The message that the host puts into the queue in a turn. -/
def admittedIn (s : Service η) : Turn η → List HostMessage
  | .near n => admission s.link n
  | .work _ | .refit _ => []

/-- The messages that the host puts into the queue in a run. -/
def admitted (s : Service η) : List (Turn η) → List HostMessage
  | [] => []
  | t :: rest => admittedIn s t ++ admitted (s.turn t).1 rest

/-- The host adds to the end of the queue what it admits, and the worker's closed end admits
nothing. -/
theorem near_queue (l : Link) (n : Link.NearStep) :
    (l.near n).prompts.queue = l.prompts.queue ++ admission l n ∧
      (l.prompts.closed = true → admission l n = []) := by
  cases n with
  | leave | receive | close | discard => exact ⟨(List.append_nil _).symm, fun _ => rfl⟩
  | send m =>
    show (l.prompts.send m).1.queue = _ ++ admission l (.send m) ∧ _
    unfold admission Channel.send
    by_cases hclosed : l.prompts.closed = true
    · simp [hclosed]
    · by_cases hroom : l.prompts.hasRoom = true
      · simp [hclosed, hroom]
      · simp [hclosed, hroom]

/-! ## Calls and inbox -/

/-- What holds between a worker, what it received, what it has called and what the host queued for
it. `aborted` says that it was cut off. -/
structure Answering (s : Service η) (inbox admitted : List HostMessage)
    (events : List Worker.Event) (aborted : Prop) : Prop where
  options : s.worker.options = Worker.optionsAfter inbox
  calls : Worker.calls events = if s.worker.started then Worker.log inbox else []
  idle : s.worker.started = false → inbox = []
  inOrder : inbox <+: admitted
  queued : s.worker.stopped = false → admitted = inbox ++ s.link.prompts.queue
  complete : s.worker.stopped = true → aborted ∨ inbox = admitted
  ends : s.worker.stopped = s.link.prompts.closed

theorem answering_fresh (factory : Factory η) (promptRoom replyRoom : Nat) :
    Answering (fresh factory promptRoom replyRoom) [] [] [] False :=
  ⟨rfl, rfl, fun _ => rfl, List.prefix_refl [], fun _ => rfl, nofun, rfl⟩

variable {inbox queued : List HostMessage} {events : List Worker.Event} {aborted : Prop}

/-- A part of the worker that calls nothing keeps it, if the queue is left alone. -/
theorem Answering.calm {l : Link} {r : Worker η × List Worker.Event}
    (h : Answering s inbox queued events aborted) (hcalm : Worker.Calm s.worker r)
    (hprompts : l.prompts = s.link.prompts) :
    Answering ⟨l, r.1⟩ inbox queued (events ++ r.2) aborted := by
  obtain ⟨options, calls, idle, inOrder, waiting, complete, ends⟩ := h
  obtain ⟨hoptions, hstarted, hstopped, hseen⟩ := hcalm
  refine ⟨hoptions.trans options, ?_, ?_, inOrder, ?_, ?_, ?_⟩
  · rw [Worker.calls_append, hseen, List.append_nil, hstarted]
    exact calls
  · rwa [hstarted]
  · rwa [hstopped, hprompts]
  · rwa [hstopped]
  · rw [hstopped, hprompts]
    exact ends

/-- What the host does at the link keeps it. -/
theorem Answering.near (h : Answering s inbox queued events aborted) (n : Link.NearStep) :
    Answering { s with link := s.link.near n } inbox (queued ++ admission s.link n) events
      aborted := by
  obtain ⟨options, calls, idle, inOrder, waiting, complete, ends⟩ := h
  obtain ⟨hqueue, hnone⟩ := near_queue s.link n
  refine ⟨options, calls, idle, inOrder.trans (List.prefix_append _ _), ?_, ?_, ?_⟩
  · intro hlive
    show _ = inbox ++ (s.link.near n).prompts.queue
    rw [hqueue, waiting hlive, List.append_assoc]
  · intro hstopped
    rw [hnone (ends.symm.trans hstopped), List.append_nil]
    exact complete hstopped
  · exact ends.trans (s.link.near_kept n).1.symm

/-- A message that is received is called for. -/
theorem Answering.receive (h : Answering s inbox queued events aborted) (now : Nat)
    {m : HostMessage} {rest : List HostMessage} (hlive : s.worker.isLive = true)
    (hqueue : s.link.prompts.queue = m :: rest) :
    s.turn (.work (.receive now)) =
      (⟨{ s.link with prompts := { s.link.prompts with queue := rest } },
        (s.worker.receive now m).1⟩, [.received m], (s.worker.receive now m).2) ∧
    Answering (s.turn (.work (.receive now))).1 (inbox ++ [m]) queued
      (events ++ (s.turn (.work (.receive now))).2.2) aborted := by
  obtain ⟨options, calls, idle, inOrder, waiting, complete, ends⟩ := h
  have hstopped := stopped_of_isLive hlive
  have hturn := turn_receive hlive (ends.symm.trans hstopped) hqueue now
  refine ⟨hturn, ?_⟩
  rw [hturn]
  have hkept : (s.worker.receive now m).1.started = s.worker.started ∧
      (s.worker.receive now m).1.stopped = s.worker.stopped ∧
      (s.worker.receive now m).1.options = reconfigured s.worker.options m := by
    cases m <;> exact ⟨rfl, rfl, rfl⟩
  obtain ⟨hstarted', hstopped', hoptions'⟩ := hkept
  have hbegun : s.worker.started = true := by
    simp [Worker.isLive] at hlive
    exact hlive.1
  have hall : queued = (inbox ++ [m]) ++ rest := by
    rw [waiting hstopped, hqueue, List.append_assoc, List.singleton_append]
  refine ⟨?_, ?_, ?_, ?_, fun _ => hall, ?_, ?_⟩
  · show (s.worker.receive now m).1.options = _
    rw [hoptions', options, Worker.optionsAfter_snoc]
  · show _ = if (s.worker.receive now m).1.started then _ else _
    rw [Worker.calls_append, calls, Worker.calls_receive options, hstarted', if_pos hbegun,
      if_pos hbegun, Worker.log_snoc]
  · intro h
    exact absurd (hstarted'.symm.trans h) (by simp [hbegun])
  · exact ⟨rest, hall.symm⟩
  · intro h
    exact absurd (hstopped'.symm.trans h) (by simp [hstopped])
  · exact hstopped'.trans ends

/-- A response that leaves does not touch the queue, and nothing is received with it. -/
theorem farSteps_post (s : Service η) (taken : Bool) :
    (s.link.farAll (farSteps s.worker (.post taken))).prompts = s.link.prompts ∧
      received (dealings (η := η) s.link (farSteps s.worker (.post taken))) = [] := by
  cases hready : s.worker.ready with
  | nil => simp [farSteps, hready, Link.farAll, dealings, received]
  | cons p rest =>
    have hsteps : farSteps s.worker (.post taken) = [.reply (.response p)] := by
      simp [farSteps, hready]
    rw [hsteps]
    refine ⟨?_, ?_⟩
    · show (s.link.far (.reply (.response p))).1.prompts = _
      simp only [Link.far]
      split <;> rfl
    · simp only [dealings, Link.far]
      split
      · rfl
      · cases (s.link.replies.send (.response p)).2 <;> rfl

theorem Answering.weaken {aborted' : Prop} (h : Answering s inbox queued events aborted)
    (himp : aborted → aborted') : Answering s inbox queued events aborted' :=
  { h with complete := fun hstopped => (h.complete hstopped).imp_left himp }

/-- A worker that begins builds its first handler. -/
theorem Answering.start (h : Answering s inbox queued events aborted)
    (hadmits : s.worker.admits .start = true) :
    Answering ⟨s.link, { s.worker with started := true }⟩ inbox queued
      (events ++ [.built s.worker.options]) aborted := by
  obtain ⟨options, calls, idle, inOrder, waiting, complete, ends⟩ := h
  have hstarted : s.worker.started = false := by
    simp [Worker.admits] at hadmits
    exact hadmits.1
  have hinbox := idle hstarted
  refine ⟨options, ?_, fun hidle => Bool.noConfusion hidle, inOrder, waiting, complete, ends⟩
  rw [Worker.calls_append, calls, hstarted, options, hinbox]
  rfl

/-- A worker that stops has received everything, unless it is cut off. -/
theorem Answering.stop (h : Answering s inbox queued events aborted)
    (hend : aborted ∨ s.worker.stopped = false ∧ s.link.prompts.queue = []) :
    Answering ⟨s.link.farAll [.closeReplies, .closePrompts], { s.worker with stopped := true }⟩
      inbox queued events aborted := by
  obtain ⟨options, calls, idle, inOrder, waiting, complete, ends⟩ := h
  refine ⟨options, calls, idle, inOrder, nofun, fun _ => ?_, rfl⟩
  refine hend.imp_right ?_
  rintro ⟨hlive, hempty⟩
  rw [waiting hlive, hempty, List.append_nil]

/-- A move of the worker keeps it. -/
theorem Answering.work (h : Answering s inbox queued events aborted) (m : Move) :
    Answering (s.turn (.work m)).1 (inbox ++ received (s.turn (.work m)).2.1) queued
      (events ++ (s.turn (.work m)).2.2) (aborted ∨ m = .abort) := by
  have h' : Answering s inbox queued events (aborted ∨ m = .abort) := h.weaken .inl
  show Answering (s.step m).1 (inbox ++ received (dealings s.link (s.effects m))) queued
    (events ++ (s.step m).2) _
  obtain ⟨heffects, hstep⟩ | ⟨wm, hmove, hadmits, heffects, hstep⟩ := s.step_cases m
  · rw [heffects, hstep]
    show Answering s (inbox ++ []) queued (events ++ []) _
    rw [List.append_nil, List.append_nil]
    exact h'
  rw [heffects, hstep]
  -- only the beginning, a message and the end touch what is answered for
  cases m with
  | start =>
    cases hmove
    show Answering _ (inbox ++ []) queued _ _
    rw [List.append_nil]
    have hbegin : s.worker.step .start =
        ({ s.worker with started := true }, [.built s.worker.options]) := if_pos hadmits
    rw [hbegin]
    exact h'.start hadmits
  | complete place succeeds =>
    cases hmove
    show Answering _ (inbox ++ []) queued _ _
    have hcomplete : s.worker.step (.complete place succeeds) =
        s.worker.complete place succeeds := if_pos hadmits
    rw [List.append_nil, hcomplete]
    exact h'.calm (Worker.calm_complete s.worker place succeeds) rfl
  | receive now =>
    obtain ⟨m, hhead, rfl⟩ := Option.map_eq_some_iff.mp hmove
    obtain ⟨rest, hqueue⟩ := List.head?_eq_some_iff.mp hhead
    obtain ⟨hturn, hreceive⟩ := h'.receive now hadmits hqueue
    have hpassed : (s.turn (.work (.receive now))).2.1 = [.received m] := by rw [hturn]
    rw [← hstep, ← heffects]
    show Answering _ (inbox ++ received (s.turn (.work (.receive now))).2.1) queued _ _
    rw [hpassed]
    exact hreceive
  | post =>
    simp only [workerMove?] at hmove
    split at hmove
    · cases hmove
      have hpost : s.worker.step (.post (!s.link.replies.closed)) =
          s.worker.post (!s.link.replies.closed) := if_pos hadmits
      obtain ⟨hprompts, hpassed⟩ := farSteps_post s (!s.link.replies.closed)
      rw [hpassed, hpost, List.append_nil]
      exact h'.calm (Worker.calm_post s.worker _) hprompts
    · cases hmove
  | retire =>
    simp only [workerMove?] at hmove
    split at hmove
    · next hend =>
      cases hmove
      have hstop : s.worker.step .stop = ({ s.worker with stopped := true }, []) := if_pos hadmits
      show Answering _ (inbox ++ []) queued _ _
      rw [List.append_nil, hstop, List.append_nil]
      simp only [Bool.and_eq_true, Channel.isEnded, List.isEmpty_iff] at hend
      exact h'.stop (.inr ⟨stopped_of_isLive hend.1, hend.2.1⟩)
    · cases hmove
  | abort =>
    cases hmove
    have hstop : s.worker.step .stop = ({ s.worker with stopped := true }, []) := if_pos hadmits
    show Answering _ (inbox ++ []) queued _ _
    rw [List.append_nil, hstop, List.append_nil]
    exact h'.stop (.inl (.inr rfl))

/-- Whatever happens next keeps it. -/
theorem Answering.turn (h : Answering s inbox queued events aborted) (t : Turn η) :
    Answering (s.turn t).1 (inbox ++ received (s.turn t).2.1) (queued ++ admittedIn s t)
      (events ++ (s.turn t).2.2) (aborted ∨ t = .work .abort) := by
  cases t with
  | work m =>
    show Answering _ _ (queued ++ []) _ _
    rw [List.append_nil]
    exact (h.work m).weaken (Or.imp_right fun hm => congrArg _ hm)
  | near n =>
    show Answering _ (inbox ++ []) _ (events ++ []) _
    rw [List.append_nil, List.append_nil]
    exact (h.near n).weaken .inl
  | refit factory =>
    show Answering _ (inbox ++ []) (queued ++ []) (events ++ []) _
    rw [List.append_nil, List.append_nil, List.append_nil]
    obtain ⟨options, calls, idle, inOrder, waiting, complete, ends⟩ := h
    exact ⟨options, calls, idle, inOrder, waiting, fun hs => (complete hs).imp_left .inl, ends⟩

/-- A run keeps it. -/
theorem Answering.turns (h : Answering s inbox queued events aborted) (ts : List (Turn η)) :
    Answering (s.turns ts).1 (inbox ++ received (s.turns ts).2.1) (queued ++ admitted s ts)
      (events ++ (s.turns ts).2.2) (aborted ∨ .work .abort ∈ ts) := by
  induction ts generalizing s inbox queued events aborted with
  | nil =>
    show Answering s (inbox ++ []) (queued ++ []) (events ++ []) _
    rw [List.append_nil, List.append_nil, List.append_nil]
    exact h.weaken .inl
  | cons t rest ih =>
    have hrest := ih (h.turn t)
    rw [List.append_assoc, List.append_assoc, List.append_assoc] at hrest
    have hreceived : received (s.turns (t :: rest)).2.1 =
        received (s.turn t).2.1 ++ received ((s.turn t).1.turns rest).2.1 := received_append _ _
    rw [hreceived]
    refine hrest.weaken ?_
    rintro ((h | h) | h)
    · exact .inl h
    · exact .inr (h ▸ List.mem_cons_self)
    · exact .inr (List.mem_cons_of_mem t h)

/-! ## Hooks that run -/

/-- The decision on one of the first `k` hooks that run, if a turn is one. Hooks that are called
later stand behind them. -/
def verdict? (k : Nat) : Turn η → Option (Nat × Bool)
  | .work (.complete place succeeds) => if place < k then some (place, succeeds) else none
  | _ => none

/-- The decisions in a run on the first `k` hooks that run. -/
def verdicts (k : Nat) : List (Turn η) → List (Nat × Bool)
  | [] => []
  | t :: rest =>
    match verdict? k t with
    | some v => v :: verdicts (k - 1) rest
    | none => verdicts k rest

/-- What is seen in a run of the first `k` hooks that run. -/
def early (k : Nat) (s : Service η) : List (Turn η) → List Worker.Event
  | [] => []
  | t :: rest =>
    match verdict? k t with
    | some _ => (s.turn t).2.2 ++ early (k - 1) (s.turn t).1 rest
    | none => early k (s.turn t).1 rest

/-- The worker's move of a decision. -/
def moveOf (v : Nat × Bool) : Worker.Move :=
  .complete v.1 v.2

theorem verdict?_eq_some {k : Nat} {t : Turn η} {v : Nat × Bool} (h : verdict? k t = some v) :
    v.1 < k ∧ t = .work (.complete v.1 v.2) := by
  unfold verdict? at h
  split at h
  · split at h
    · next hplace =>
      cases h
      exact ⟨hplace, rfl⟩
    · cases h
  · cases h

theorem stopped_turn (h : s.worker.stopped = true) (t : Turn η) :
    (s.turn t).1.worker.stopped = true := by
  cases t with
  | near | refit => exact h
  | work m =>
    show (s.step m).1.worker.stopped = true
    obtain ⟨-, hstep⟩ | ⟨wm, -, hadmits, -, -⟩ := s.step_cases m
    · rw [hstep]
      exact h
    · cases wm <;> simp [Worker.admits, Worker.isLive, h] at hadmits

theorem stopped_turns (h : s.worker.stopped = true) (ts : List (Turn η)) :
    (s.turns ts).1.worker.stopped = true := by
  induction ts generalizing s with
  | nil => exact h
  | cons t rest ih => exact ih (stopped_turn h t)

/-- Moves other than the completion of one of them leave the first hooks where they are, while the
loop lives. -/
theorem running_step {w : Worker η} {older newer : List (Worker.Task η)} {m : Worker.Move}
    (hlive : w.isLive = true) (hsplit : w.running = older ++ newer)
    (hother : ∀ place succeeds, m = .complete place succeeds → older.length ≤ place)
    (hend : (w.step m).1.stopped = false) :
    (w.step m).1.isLive = true ∧ ∃ newer', (w.step m).1.running = older ++ newer' := by
  obtain ⟨hstarted, hstopped⟩ : w.started = true ∧ w.stopped = false := by
    simpa [Worker.isLive] using hlive
  cases m with
  | start =>
    have hstep : w.step .start = (w, []) := if_neg (by simp [Worker.admits, hstarted])
    rw [hstep]
    exact ⟨hlive, newer, hsplit⟩
  | stop =>
    have hstep : w.step .stop = ({ w with stopped := true }, []) :=
      if_pos (by simp [Worker.admits, hstopped])
    rw [hstep] at hend
    cases hend
  | receive now m =>
    have hstep : w.step (.receive now m) = w.receive now m := if_pos hlive
    rw [hstep]
    cases m with
    | config | unknown => exact ⟨hlive, newer, hsplit⟩
    | prompt p =>
      refine ⟨hlive, ?_⟩
      simp only [Worker.receive, hsplit, List.append_assoc]
      exact ⟨_, rfl⟩
  | complete place succeeds =>
    have hstep : w.step (.complete place succeeds) = w.complete place succeeds := if_pos hlive
    rw [hstep]
    obtain ⟨-, hstarted', hstopped', -⟩ := Worker.calm_complete w place succeeds
    refine ⟨by simp [Worker.isLive, hstarted', hstopped', hstarted, hstopped], ?_⟩
    unfold Worker.complete
    split
    · exact ⟨newer, hsplit⟩
    · refine ⟨newer.eraseIdx (place - older.length), ?_⟩
      rw [← List.eraseIdx_append_of_length_le (hother place succeeds rfl), ← hsplit]
      cases succeeds <;> rfl
  | post taken =>
    have hstep : w.step (.post taken) = w.post taken := if_pos hlive
    rw [hstep]
    unfold Worker.post
    split
    · exact ⟨hlive, newer, hsplit⟩
    · exact ⟨hlive, newer, hsplit⟩

theorem running_turn {older newer : List (Worker.Task η)} (hlive : s.worker.isLive = true)
    (hsplit : s.worker.running = older ++ newer) {t : Turn η}
    (hother : verdict? older.length t = none) (hend : (s.turn t).1.worker.stopped = false) :
    (s.turn t).1.worker.isLive = true ∧
      ∃ newer', (s.turn t).1.worker.running = older ++ newer' := by
  cases t with
  | near | refit => exact ⟨hlive, newer, hsplit⟩
  | work m =>
    obtain ⟨-, hstep⟩ | ⟨wm, hmove, -, -, hstep⟩ := s.step_cases m
    · have hsame : (s.turn (.work m)).1.worker = s.worker := congrArg (·.1.worker) hstep
      rw [hsame]
      exact ⟨hlive, newer, hsplit⟩
    · have hworker : (s.turn (.work m)).1.worker = (s.worker.step wm).1 :=
        congrArg (·.1.worker) hstep
      rw [hworker] at hend ⊢
      refine running_step hlive hsplit ?_ hend
      rintro place succeeds rfl
      cases m with
      | complete =>
        cases hmove
        simpa [verdict?] using hother
      | start | abort => cases hmove
      | receive now =>
        obtain ⟨m, -, hm⟩ := Option.map_eq_some_iff.mp hmove
        cases hm
      | post | retire =>
        simp only [workerMove?] at hmove
        split at hmove <;> cases hmove

/-- A decision on one of the first hooks has the same effect whatever hooks stand behind them. -/
theorem complete_append {w : Worker η} {newer : List (Worker.Task η)} {place : Nat}
    (hlive : s.worker.isLive = true) (hw : w.isLive = true)
    (hsplit : s.worker.running = w.running ++ newer) (hplace : place < w.running.length)
    (succeeds : Bool) :
    (s.turn (.work (.complete place succeeds))).2.2 = (w.step (.complete place succeeds)).2 ∧
      (s.turn (.work (.complete place succeeds))).1.worker.isLive = true ∧
      (w.step (.complete place succeeds)).1.isLive = true ∧
      (w.step (.complete place succeeds)).1.running.length = w.running.length - 1 ∧
      (s.turn (.work (.complete place succeeds))).1.worker.running =
        (w.step (.complete place succeeds)).1.running ++ newer := by
  have hturn := turn_complete hlive place succeeds
  have hstep : w.step (.complete place succeeds) = w.complete place succeeds := if_pos hw
  have htask : s.worker.running[place]? = w.running[place]? := by
    rw [hsplit, List.getElem?_append_left hplace]
  have hrest : s.worker.running.eraseIdx place = w.running.eraseIdx place ++ newer := by
    rw [hsplit, List.eraseIdx_append_of_lt_length hplace]
  have hlength := List.length_eraseIdx_of_lt hplace
  rw [hturn, hstep]
  unfold Worker.complete
  rw [htask, List.getElem?_eq_getElem hplace]
  cases succeeds <;> exact ⟨rfl, hlive, hw, hlength, hrest⟩

/-- What becomes of the first hooks is decided by the decisions on them alone. -/
theorem early_eq {w : Worker η} {newer : List (Worker.Task η)} (hlive : s.worker.isLive = true)
    (hw : w.isLive = true) (hsplit : s.worker.running = w.running ++ newer) (ts : List (Turn η))
    (hend : (s.turns ts).1.worker.stopped = false) :
    early w.running.length s ts = (w.run ((verdicts w.running.length ts).map moveOf)).2 := by
  -- `w` runs only the first hooks, the worker in `s` also the ones called since
  induction ts generalizing s w newer with
  | nil => rfl
  | cons t rest ih =>
    have hend' : ((s.turn t).1.turns rest).1.worker.stopped = false := hend
    cases hv : verdict? w.running.length t with
    | none =>
      have hnow : (s.turn t).1.worker.stopped = false := by
        by_contra h
        rw [stopped_turns (by simpa using h) rest] at hend'
        cases hend'
      obtain ⟨hlive', newer', hsplit'⟩ := running_turn hlive hsplit hv hnow
      simp only [early, verdicts, hv]
      exact ih hlive' hw hsplit' hend'
    | some v =>
      obtain ⟨place, succeeds⟩ := v
      obtain ⟨hplace, rfl⟩ := verdict?_eq_some hv
      obtain ⟨hseen, hlive', hw', hlength, hsplit'⟩ :=
        complete_append hlive hw hsplit hplace succeeds
      have hrest := ih hlive' hw' hsplit' hend'
      rw [hlength] at hrest
      simp only [early, verdicts, hv, List.map_cons]
      rw [hseen, hrest]
      rfl

/-! ## Whole runs -/

/-- What holds of the calls of a worker, after some dealings and events, when the host has queued
some messages for it:
1. it has made the calls of its inbox, and before it begins none;
2. the factory was called with empty options and then once for each configuration, in order, with
   its options, and a hook was called once for each prompt, in order;
3. what it received is what was queued first, and all of it once the worker has stopped without
   being cut off;
4. the next message is received whenever the worker takes its turn, however many hooks run and
   whether or not responses can be posted, and its calls are made then;
5. what becomes of the hooks that run, while the loop lives, is decided by the decisions on them
   alone, as if nothing else happened. -/
structure Dispatched (s : Service η) (dealt : List (Dealing η)) (events : List Worker.Event)
    (queued : List HostMessage) (aborted : Prop) : Prop where
  calls : Worker.calls events =
    if s.worker.started then Worker.log (received dealt) else []
  idle : s.worker.started = false → received dealt = []
  builds : s.worker.started = true →
    events.filterMap Worker.Event.built? =
      .obj [] :: (received dealt).filterMap HostMessage.options?
  hooks : events.filterMap Worker.Event.called? = (received dealt).filterMap HostMessage.prompt?
  inOrder : received dealt <+: queued
  complete : s.worker.stopped = true → ¬ aborted → received dealt = queued
  undelayed : s.worker.isLive = true → ∀ {m rest}, s.link.prompts.queue = m :: rest → ∀ now,
    (s.turn (.work (.receive now))).2.1 = [.received m] ∧
      Worker.calls (s.turn (.work (.receive now))).2.2 = Worker.callsOf (received dealt) m ∧
      (s.turn (.work (.receive now))).1.link.prompts.queue = rest
  undisturbed : s.worker.isLive = true → ∀ later,
    (s.turns later).1.worker.stopped = false →
    early s.worker.running.length s later =
      (s.worker.run ((verdicts s.worker.running.length later).map moveOf)).2

theorem filterMap_built_calls (events : List Worker.Event) :
    events.filterMap Worker.Event.built? =
      (Worker.calls events).filterMap Worker.Event.built? := by
  rw [Worker.calls, List.filterMap_filter]
  congr
  funext e
  cases e <;> rfl

theorem filterMap_called_calls (events : List Worker.Event) :
    events.filterMap Worker.Event.called? =
      (Worker.calls events).filterMap Worker.Event.called? := by
  rw [Worker.calls, List.filterMap_filter]
  congr
  funext e
  cases e <;> rfl

theorem Answering.dispatched {dealt : List (Dealing η)}
    (h : Answering s (received dealt) queued events aborted) :
    Dispatched s dealt events queued aborted := by
  refine ⟨h.calls, h.idle, ?_, ?_, h.inOrder, ?_, ?_, ?_⟩
  · intro hstarted
    rw [filterMap_built_calls, h.calls, if_pos hstarted, Worker.filterMap_built_log]
  · rw [filterMap_called_calls, h.calls]
    by_cases hstarted : s.worker.started = true
    · rw [if_pos hstarted, Worker.filterMap_called_log]
    · rw [if_neg hstarted, h.idle (by simpa using hstarted)]
      rfl
  · intro hstopped hwhole
    exact (h.complete hstopped).resolve_left hwhole
  · intro hlive m rest hqueue now
    obtain ⟨hturn, -⟩ := h.receive now hlive hqueue
    rw [hturn]
    exact ⟨rfl, Worker.calls_receive h.options now m, rfl⟩
  · intro hlive later hend
    exact early_eq hlive hlive (List.append_nil s.worker.running).symm later hend

/-- **What a worker calls depends on its inbox alone.** At every point of every run the calls are
those of the messages received so far, and so two workers that have begun and received the same
messages have made the same calls, whatever their factories answer, however their hooks complete,
and whatever room there is for their responses. -/
theorem dispatch_turns (factory : Factory η) (promptRoom replyRoom : Nat) (ts : List (Turn η)) :
    let s := fresh factory promptRoom replyRoom
    Dispatched (s.turns ts).1 (s.turns ts).2.1 (s.turns ts).2.2 (admitted s ts)
        (.work .abort ∈ ts) ∧
      ∀ (factory' : Factory η) (promptRoom' replyRoom' : Nat) (ts' : List (Turn η)),
        let s' := fresh factory' promptRoom' replyRoom'
        received (s'.turns ts').2.1 = received (s.turns ts).2.1 →
          (s'.turns ts').1.worker.started = (s.turns ts).1.worker.started →
          Worker.calls (s'.turns ts').2.2 = Worker.calls (s.turns ts).2.2 := by
  -- both runs keep the invariant, and it fixes the calls by the inbox
  have answering : ∀ (factory : Factory η) (promptRoom replyRoom : Nat) (ts : List (Turn η)),
      let s := fresh factory promptRoom replyRoom
      Answering (s.turns ts).1 (received (s.turns ts).2.1) (admitted s ts) (s.turns ts).2.2
        (.work .abort ∈ ts) := by
    intro factory promptRoom replyRoom ts
    exact ((answering_fresh factory promptRoom replyRoom).turns ts).weaken (Or.resolve_left · id)
  have h := answering factory promptRoom replyRoom ts
  refine ⟨h.dispatched, ?_⟩
  intro factory' promptRoom' replyRoom' ts' s' hreceived hstarted
  have h' := answering factory' promptRoom' replyRoom' ts'
  rw [h.calls, h'.calls, hreceived, hstarted]

/-- A hook that fails, while nobody reads the responses, makes no difference to the calls of a
worker that is configured and then pinged. -/
theorem dispatch_turns_ping :
    let s := fresh (fun _ _ => some ()) 2 1
    let s' := fresh (fun _ _ => some ()) 1 0
    let configured := HostMessage.config (.obj [("limit", .int 1)])
    let ts := [Turn.work .start, .near (.send configured), .near (.send (.prompt .ping)),
      .work (.receive 0), .work (.receive 1), .work (.complete 0 true), .work .post]
    let ts' := [Turn.work .start, .near .discard, .near (.send configured), .work (.receive 0),
      .near (.send (.prompt .ping)), .work (.receive 0), .work (.complete 0 false)]
    received (s'.turns ts').2.1 = received (s.turns ts).2.1 ∧
      (s'.turns ts').1.worker.started = (s.turns ts).1.worker.started ∧
      Worker.calls (s'.turns ts').2.2 = Worker.calls (s.turns ts).2.2 ∧
      Worker.calls (s.turns ts).2.2 = [.built (.obj []), .built (.obj [("limit", .int 1)]),
        .called (.obj [("limit", .int 1)]) .ping] :=
  ⟨rfl, rfl, (dispatch_turns (fun _ _ => some ()) 2 1 _).2 (fun _ _ => some ()) 1 0 _ rfl rfl, rfl⟩

end Service

end Invigilation
