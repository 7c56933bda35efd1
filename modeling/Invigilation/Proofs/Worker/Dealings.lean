import Invigilation.Proofs.Worker.Accounts
import Invigilation.Worker.Service

/-!
# The dealings of a worker with its host

A worker meets its host only at the link: it receives messages there and posts responses. Its host
may do anything at the other end, and the factory may answer differently from one time to the next;
still every response is owed to one prompt whose hook was implemented and succeeded.

- `Link.near`: what the host's side can do at a link.
- `Service.Turn`, `Service.turns`: the worker's moves among all that happens around it.
- `Service.implemented`: the hooks that the received messages start.
- `Service.Squared`, `Service.squared_turns`: **the accounts of a worker at its link**, at every
  point of every run.
-/

namespace Invigilation

open Link (FarStep FarAnswer)

namespace Link

/-- What the host's side can do. -/
inductive NearStep where
  | send (m : HostMessage)
  /-- The host will send no more. -/
  | leave
  | receive
  /-- The host admits no further reply. -/
  | close
  /-- The host will read no more. -/
  | discard
  deriving DecidableEq

/-- One step of the host's side. -/
def near (l : Link) : NearStep → Link
  | .send m => { l with prompts := (l.prompts.send m).1 }
  | .leave => { l with prompts := l.prompts.leave }
  | .receive => { l with replies := l.replies.receive.1 }
  | .close => { l with replies := l.replies.close }
  | .discard => { l with replies := l.replies.discard }

/-- The host's side cannot close the worker's ends. -/
theorem near_kept (l : Link) (n : NearStep) :
    (l.near n).prompts.closed = l.prompts.closed ∧
      (l.near n).replies.senderGone = l.replies.senderGone := by
  cases n with
  | send m =>
    refine ⟨?_, rfl⟩
    show (l.prompts.send m).1.closed = _
    unfold Channel.send
    repeat' split
    all_goals rfl
  | receive =>
    refine ⟨rfl, ?_⟩
    show l.replies.receive.1.senderGone = _
    unfold Channel.receive
    split <;> rfl
  | leave | close | discard => exact ⟨rfl, rfl⟩

end Link

namespace Service

variable {η : Type}

/-- What passes between a worker and the world around it. -/
inductive Dealing (η : Type) where
  | received (m : HostMessage)
  | posted (m : WorkerMessage)
  /-- From now on the factory answers like this one. -/
  | refitted (factory : Factory η)

/-- What passes in one step at the link. -/
def dealing? : FarStep → FarAnswer → Option (Dealing η)
  | _, .taken m => some (.received m)
  | .reply m, .accepted true => some (.posted m)
  | _, _ => none

/-- What passes in several steps at the link. -/
def dealings (l : Link) : List FarStep → List (Dealing η)
  | [] => []
  | f :: rest => (dealing? f (l.far f).2).toList ++ dealings (l.far f).1 rest

/-- What can happen to a worker at its link. -/
inductive Turn (η : Type) where
  | work (m : Move)
  /-- The host acts. -/
  | near (n : Link.NearStep)
  /-- The factory and its handlers change their answers. -/
  | refit (factory : Factory η)

/-- One turn, with what passes and what is seen of the worker. -/
def turn (s : Service η) : Turn η → Service η × List (Dealing η) × List Worker.Event
  | .work m => ((s.step m).1, dealings s.link (s.effects m), (s.step m).2)
  | .near n => ({ s with link := s.link.near n }, [], [])
  | .refit factory => ({ s with worker := { s.worker with factory } }, [.refitted factory], [])

/-- A run of turns. -/
def turns (s : Service η) : List (Turn η) → Service η × List (Dealing η) × List Worker.Event
  | [] => (s, [], [])
  | t :: rest =>
    let (s, passed, seen) := s.turn t
    let (s, passed', seen') := s.turns rest
    (s, passed ++ passed', seen ++ seen')

/-- A worker that has not begun, at a link on which nothing has happened. -/
def fresh (factory : Factory η) (promptRoom replyRoom : Nat) : Service η :=
  ⟨⟨{ capacity := promptRoom }, { capacity := replyRoom }⟩, { factory }⟩

/-! ## What was dealt -/

/-- The messages that the worker received. -/
def received (dealt : List (Dealing η)) : List HostMessage :=
  dealt.filterMap fun
    | .received m => some m
    | _ => none

/-- The messages that the worker posted. -/
def posted (dealt : List (Dealing η)) : List WorkerMessage :=
  dealt.filterMap fun
    | .posted m => some m
    | _ => none

theorem received_append (dealt later : List (Dealing η)) :
    received (dealt ++ later) = received dealt ++ received later :=
  List.filterMap_append

theorem posted_append (dealt later : List (Dealing η)) :
    posted (dealt ++ later) = posted dealt ++ posted later :=
  List.filterMap_append

/-- The options in force after a message. -/
def reconfigured (options : Json) : HostMessage → Json
  | .config options => options
  | .prompt _ | .unknown => options

/-- The factory and the options in force after some dealings. -/
def inForce (factory : Factory η) (options : Json) : List (Dealing η) → Factory η × Json
  | [] => (factory, options)
  | .received m :: rest => inForce factory (reconfigured options m) rest
  | .posted _ :: rest => inForce factory options rest
  | .refitted factory :: rest => inForce factory options rest

/-- The prompts that were received while the handler in force implemented them. -/
def implemented (factory : Factory η) (options : Json) : List (Dealing η) → List Prompt
  | [] => []
  | .received m :: rest =>
    implements (factory options) m ++ implemented factory (reconfigured options m) rest
  | .posted _ :: rest => implemented factory options rest
  | .refitted factory :: rest => implemented factory options rest

theorem inForce_append (factory : Factory η) (options : Json) (dealt later : List (Dealing η)) :
    inForce factory options (dealt ++ later) =
      inForce (inForce factory options dealt).1 (inForce factory options dealt).2 later := by
  induction dealt generalizing factory options with
  | nil => rfl
  | cons d rest ih => cases d <;> exact ih _ _

theorem implemented_append (factory : Factory η) (options : Json)
    (dealt later : List (Dealing η)) :
    implemented factory options (dealt ++ later) = implemented factory options dealt ++
      implemented (inForce factory options dealt).1 (inForce factory options dealt).2 later := by
  induction dealt generalizing factory options with
  | nil => rfl
  | cons d rest ih =>
    cases d with
    | posted | refitted => exact ih _ _
    | received m =>
      show _ ++ implemented factory _ (rest ++ later) = (_ ++ _) ++ _
      rw [ih, List.append_assoc]
      rfl

/-- No prompt is implemented more often than it was received. -/
theorem count_implemented_le (factory : Factory η) (options : Json) (dealt : List (Dealing η))
    (p : Prompt) :
    (implemented factory options dealt).count p ≤ (received dealt).count (.prompt p) := by
  induction dealt generalizing factory options with
  | nil => exact Nat.le_refl 0
  | cons d rest ih =>
    cases d with
    | posted | refitted => exact ih _ _
    | received m =>
      have hone := count_implements_le (factory options) m p
      have hrest := ih factory (reconfigured options m)
      show List.count p (_ ++ _) ≤ List.count (.prompt p) ([m] ++ received rest)
      rw [List.count_append, List.count_append]
      omega

/-! ## What a turn of the worker does -/

variable {s : Service η}

/-- The ways in which a move of the worker goes. Either it cannot happen, or it is one of the
worker's moves, and then it does at the link what belongs to it. -/
theorem step_cases (s : Service η) (m : Move) :
    (s.effects m = [] ∧ s.step m = (s, [])) ∨
    ∃ wm, s.workerMove? m = some wm ∧ s.worker.admits wm = true ∧
      s.effects m = farSteps s.worker wm ∧
      s.step m = (⟨s.link.farAll (farSteps s.worker wm), (s.worker.step wm).1⟩,
        (s.worker.step wm).2) := by
  unfold step effects work
  cases hmove : s.workerMove? m with
  | none => exact .inl ⟨rfl, rfl⟩
  | some wm =>
    by_cases hadmits : s.worker.admits wm = true
    · refine .inr ⟨wm, rfl, hadmits, ?_, ?_⟩
      · exact if_pos hadmits
      · dsimp only
        rw [if_pos hadmits]
    · refine .inl ⟨if_neg hadmits, ?_⟩
      dsimp only
      rw [if_neg hadmits]
      unfold Worker.step
      rw [if_neg hadmits]
      rfl

/-- The response that is posted in an event, if one is. -/
def post? : Worker.Event → Option WorkerMessage
  | .posted p => some (.response p)
  | _ => none

/-- The worker's ends of a link are open until it stops. -/
structure Open (s : Service η) : Prop where
  reads : s.worker.stopped = false → s.link.prompts.closed = false
  sends : s.worker.stopped = false → s.link.replies.senderGone = false

/-- What holds from before some turn to after it. -/
structure Passage (s : Service η) (dealt : List (Dealing η)) (s' : Service η)
    (seen : List Worker.Event) : Prop where
  accounts : ∀ {hooks events p}, s.worker.Accounts hooks events p →
    s'.worker.Accounts (hooks ++ implemented s.worker.factory s.worker.options dealt)
      (events ++ seen) p
  force : inForce s.worker.factory s.worker.options dealt = (s'.worker.factory, s'.worker.options)
  posts : posted dealt = seen.filterMap post?
  ends : Open s'

/-- A turn in which nothing passes, and which leaves the worker as it is. -/
theorem passage_of_quiet {s' : Service η} (hworker : s'.worker = s.worker) (ends : Open s') :
    Passage s [] s' [] := by
  refine ⟨?_, ?_, rfl, ends⟩
  · intro hooks events p accounts
    show s'.worker.Accounts (hooks ++ []) (events ++ []) p
    rw [List.append_nil, List.append_nil, hworker]
    exact accounts
  · rw [hworker]
    rfl

theorem stopped_of_isLive {w : Worker η} (h : w.isLive = true) : w.stopped = false := by
  simp [Worker.isLive] at h
  exact h.2

/-- A response that leaves is queued, unless the host admits no more. -/
theorem far_reply {l : Link} (hjoined : l.replies.senderGone = false) (hcan : canPost l = true)
    (m : WorkerMessage) :
    ∃ replies, l.far (.reply m) = ({ l with replies }, .accepted (!l.replies.closed)) ∧
      replies.senderGone = false := by
  cases hclosed : l.replies.closed with
  | true =>
    refine ⟨l.replies, ?_, hjoined⟩
    simp [Link.far, hjoined, Channel.send, hclosed]
  | false =>
    have hroom : l.replies.hasRoom = true := by simpa [canPost, hclosed] using hcan
    refine ⟨{ l.replies with queue := l.replies.queue ++ [m] }, ?_, hjoined⟩
    simp [Link.far, hjoined, Channel.send, hclosed, hroom]

/-- The first message that is queued is taken, as long as the worker reads. -/
theorem far_takePrompt {l : Link} {m : HostMessage} {rest : List HostMessage}
    (hclosed : l.prompts.closed = false) (hqueue : l.prompts.queue = m :: rest) :
    l.far .takePrompt = ({ l with prompts := { l.prompts with queue := rest } }, .taken m) := by
  simp [Link.far, Channel.receive, hclosed, hqueue]

/-- A worker that takes its turn to receive takes the first message that is queued. -/
theorem turn_receive {m : HostMessage} {rest : List HostMessage}
    (hlive : s.worker.isLive = true) (hreads : s.link.prompts.closed = false)
    (hqueue : s.link.prompts.queue = m :: rest) (now : Nat) :
    s.turn (.work (.receive now)) =
      (⟨{ s.link with prompts := { s.link.prompts with queue := rest } },
        (s.worker.receive now m).1⟩, [.received m], (s.worker.receive now m).2) := by
  have hfar := far_takePrompt hreads hqueue
  simp [turn, step, effects, work, workerMove?, farSteps, Worker.step, Worker.admits, hlive,
    hqueue, dealings, dealing?, Link.farAll, hfar]

/-- A worker that takes its turn to post puts the response that is ready for longest into the queue,
if there is room. -/
theorem turn_post {p : Prompt} {rest : List Prompt} (hlive : s.worker.isLive = true)
    (hsends : s.link.replies.senderGone = false) (hadmits : s.link.replies.closed = false)
    (hroom : s.link.replies.hasRoom = true) (hready : s.worker.ready = p :: rest) :
    s.turn (.work .post) =
      (⟨{ s.link with
          replies := { s.link.replies with queue := s.link.replies.queue ++ [.response p] } },
        { s.worker with ready := rest }⟩, [.posted (.response p)], [.posted p]) := by
  have hfar : s.link.far (.reply (.response p)) =
      ({ s.link with
        replies := { s.link.replies with queue := s.link.replies.queue ++ [.response p] } },
        .accepted true) := by
    simp [Link.far, hsends, Channel.send, hadmits, hroom]
  simp [turn, step, effects, work, workerMove?, canPost, farSteps, Worker.step, Worker.admits,
    Worker.post, hlive, hadmits, hroom, hready, dealings, dealing?, Link.farAll, hfar]

/-- The completion of a hook does nothing at the link. -/
theorem turn_complete (hlive : s.worker.isLive = true) (place : Nat) (succeeds : Bool) :
    s.turn (.work (.complete place succeeds)) =
      (⟨s.link, (s.worker.complete place succeeds).1⟩, [],
        (s.worker.complete place succeeds).2) := by
  simp [turn, step, effects, work, workerMove?, farSteps, Worker.step, Worker.admits, hlive,
    dealings, Link.farAll]

/-- A message that is received is taken from the link. -/
theorem passage_receive {now : Nat} {m : HostMessage} (ends : Open s)
    (hlive : s.worker.isLive = true) (hhead : s.link.prompts.queue.head? = some m) :
    Passage s (dealings s.link [.takePrompt])
      ⟨s.link.farAll [.takePrompt], (s.worker.step (.receive now m)).1⟩
      (s.worker.step (.receive now m)).2 := by
  have hstopped := stopped_of_isLive hlive
  obtain ⟨rest, hqueue⟩ := List.head?_eq_some_iff.mp hhead
  have hfar := far_takePrompt (ends.reads hstopped) hqueue
  have hdealt : dealings (η := η) s.link [.takePrompt] = [.received m] := by
    simp [dealings, hfar, dealing?]
  have hstep : s.worker.step (.receive now m) = s.worker.receive now m := if_pos hlive
  have hlink : s.link.farAll [.takePrompt] =
      { s.link with prompts := { s.link.prompts with queue := rest } } := congrArg Prod.fst hfar
  rw [hdealt, hstep, hlink]
  refine ⟨?_, ?_, ?_, ?_⟩
  · intro hooks events p accounts
    show (s.worker.receive now m).1.Accounts (hooks ++ (_ ++ [])) _ p
    rw [List.append_nil]
    exact accounts.receive now m
  · cases m <;> rfl
  · cases m <;> rfl
  · exact ⟨fun _ => ends.reads hstopped, fun _ => ends.sends hstopped⟩

/-- A response that is posted is queued at the link, and one that is lost is not. -/
theorem passage_post (ends : Open s) (hlive : s.worker.isLive = true)
    (hcan : canPost s.link = true) :
    Passage s (dealings s.link (farSteps s.worker (.post (!s.link.replies.closed))))
      ⟨s.link.farAll (farSteps s.worker (.post (!s.link.replies.closed))),
        (s.worker.step (.post (!s.link.replies.closed))).1⟩
      (s.worker.step (.post (!s.link.replies.closed))).2 := by
  have hstopped := stopped_of_isLive hlive
  have hstep : s.worker.step (.post (!s.link.replies.closed)) =
      s.worker.post (!s.link.replies.closed) := if_pos hlive
  rw [hstep]
  cases hready : s.worker.ready with
  | nil =>
    have hsteps : farSteps s.worker (.post (!s.link.replies.closed)) = [] := by
      simp [farSteps, hready]
    have hpost : s.worker.post (!s.link.replies.closed) = (s.worker, []) := by
      simp [Worker.post, hready]
    rw [hsteps, hpost]
    exact passage_of_quiet rfl ends
  | cons p rest =>
    have hsteps : farSteps s.worker (.post (!s.link.replies.closed)) =
        [.reply (.response p)] := by
      simp [farSteps, hready]
    have hpost : s.worker.post (!s.link.replies.closed) = ({ s.worker with ready := rest },
        [if !s.link.replies.closed then .posted p else .lost p]) := by
      simp [Worker.post, hready]
    obtain ⟨replies, hfar, hgone⟩ := far_reply (ends.sends hstopped) hcan (.response p)
    have hlink : s.link.farAll [.reply (.response p)] = { s.link with replies } :=
      congrArg Prod.fst hfar
    have hdealt : dealings (η := η) s.link [.reply (.response p)] =
        if !s.link.replies.closed then [.posted (.response p)] else [] := by
      simp only [dealings, hfar]
      cases s.link.replies.closed <;> rfl
    have haccounts : ∀ {hooks events p'}, s.worker.Accounts hooks events p' →
        Worker.Accounts hooks (s.worker.post (!s.link.replies.closed)).1
          (events ++ (s.worker.post (!s.link.replies.closed)).2) p' :=
      fun accounts => accounts.post _
    rw [hpost] at haccounts
    rw [hsteps, hpost, hlink, hdealt]
    have hends : Open (⟨{ s.link with replies }, { s.worker with ready := rest }⟩ : Service η) :=
      ⟨fun _ => ends.reads hstopped, fun _ => hgone⟩
    refine ⟨?_, ?_, ?_, hends⟩
    · intro hooks events p' accounts
      have hnone : implemented s.worker.factory s.worker.options
          (if !s.link.replies.closed then [.posted (.response p)] else []) = [] := by
        cases s.link.replies.closed <;> rfl
      rw [hnone, List.append_nil]
      exact haccounts accounts
    · cases s.link.replies.closed <;> rfl
    · cases s.link.replies.closed <;> rfl

/-- The beginning and the completion of a hook stay within the worker. -/
theorem passage_within {w' : Worker η} {seen : List Worker.Event} (ends : Open s)
    (haccounts : ∀ {hooks events p}, s.worker.Accounts hooks events p →
      w'.Accounts hooks (events ++ seen) p)
    (hkept : w'.factory = s.worker.factory ∧ w'.options = s.worker.options ∧
      w'.stopped = s.worker.stopped) (hposts : seen.filterMap post? = []) :
    Passage s [] ⟨s.link, w'⟩ seen := by
  obtain ⟨hfactory, hoptions, hstopped⟩ := hkept
  refine ⟨?_, ?_, hposts.symm, ?_⟩
  · intro hooks events p accounts
    show w'.Accounts (hooks ++ []) _ p
    rw [List.append_nil]
    exact haccounts accounts
  · show (s.worker.factory, s.worker.options) = (w'.factory, w'.options)
    rw [hfactory, hoptions]
  · refine ⟨?_, ?_⟩
    · intro h
      exact ends.reads (hstopped.symm.trans h)
    · intro h
      exact ends.sends (hstopped.symm.trans h)

/-- A worker that stops closes its ends of the link, and nothing passes. -/
theorem passage_stop (hadmits : s.worker.admits .stop = true) :
    Passage s (dealings s.link (farSteps s.worker .stop))
      ⟨s.link.farAll (farSteps s.worker .stop), (s.worker.step .stop).1⟩
      (s.worker.step .stop).2 := by
  have hstop : s.worker.step .stop = ({ s.worker with stopped := true }, []) := if_pos hadmits
  rw [hstop]
  refine ⟨?_, rfl, rfl, ⟨nofun, nofun⟩⟩
  intro hooks events p accounts
  show Worker.Accounts (hooks ++ []) _ (events ++ []) p
  rw [List.append_nil, List.append_nil]
  exact ⟨accounts.hooks, accounts.responses⟩

/-- A move of the worker. -/
theorem passage_work (ends : Open s) (m : Move) :
    Passage s (dealings s.link (s.effects m)) (s.step m).1 (s.step m).2 := by
  obtain ⟨heffects, hstep⟩ | ⟨wm, hmove, hadmits, heffects, hstep⟩ := s.step_cases m
  · rw [heffects, hstep]
    exact passage_of_quiet rfl ends
  rw [heffects, hstep]
  -- the worker's part of each move is known from here on
  cases m with
  | start =>
    cases hmove
    have hbegin : s.worker.step .start =
        ({ s.worker with started := true }, [.built s.worker.options]) := if_pos hadmits
    refine passage_within ends ?_ ?_ ?_
    · intro hooks events p accounts
      have h := accounts.step .start
      rw [show s.worker.launches .start = [] from rfl, List.append_nil] at h
      exact h
    · rw [hbegin]
      exact ⟨rfl, rfl, rfl⟩
    · rw [hbegin]
      rfl
  | complete place succeeds =>
    cases hmove
    have hcomplete : s.worker.step (.complete place succeeds) =
        s.worker.complete place succeeds := if_pos hadmits
    rw [hcomplete]
    refine passage_within ends (fun accounts => accounts.complete place succeeds) ?_ ?_
    · unfold Worker.complete
      split
      · exact ⟨rfl, rfl, rfl⟩
      · cases succeeds <;> exact ⟨rfl, rfl, rfl⟩
    · unfold Worker.complete
      split
      · rfl
      · cases succeeds <;> rfl
  | receive now =>
    obtain ⟨m, hhead, rfl⟩ := Option.map_eq_some_iff.mp hmove
    exact passage_receive ends hadmits hhead
  | post =>
    simp only [workerMove?] at hmove
    split at hmove
    · next hcan =>
      cases hmove
      exact passage_post ends hadmits hcan
    · cases hmove
  | retire =>
    simp only [workerMove?] at hmove
    split at hmove
    · cases hmove
      exact passage_stop hadmits
    · cases hmove
  | abort =>
    cases hmove
    exact passage_stop hadmits

/-- Whatever happens next, what holds of a turn holds. -/
theorem passage_turn (ends : Open s) (t : Turn η) :
    Passage s (s.turn t).2.1 (s.turn t).1 (s.turn t).2.2 := by
  cases t with
  | work m => exact passage_work ends m
  | near n =>
    obtain ⟨hclosed, hgone⟩ := s.link.near_kept n
    refine passage_of_quiet rfl ⟨?_, ?_⟩
    · intro h
      exact hclosed.trans (ends.reads h)
    · intro h
      exact hgone.trans (ends.sends h)
  | refit factory =>
    refine ⟨?_, rfl, rfl, ⟨ends.reads, ends.sends⟩⟩
    intro hooks events p accounts
    show Worker.Accounts (hooks ++ []) _ (events ++ []) p
    rw [List.append_nil, List.append_nil]
    exact ⟨accounts.hooks, accounts.responses⟩

/-! ## Whole runs -/

/-- What holds of a worker that began with a factory, at every point of its run. -/
structure Kept (factory : Factory η) (s : Service η) (dealt : List (Dealing η))
    (events : List Worker.Event) : Prop where
  accounts : ∀ p, s.worker.Accounts (implemented factory (.obj []) dealt) events p
  force : inForce factory (.obj []) dealt = (s.worker.factory, s.worker.options)
  posts : posted dealt = events.filterMap post?
  ends : Open s

/-- One turn keeps it. -/
theorem Kept.turn {factory : Factory η} {dealt : List (Dealing η)} {events : List Worker.Event}
    (kept : Kept factory s dealt events) (t : Turn η) :
    Kept factory (s.turn t).1 (dealt ++ (s.turn t).2.1) (events ++ (s.turn t).2.2) := by
  -- what is in force decides what later messages start, so it is kept along with the accounts
  have passage := passage_turn kept.ends t
  refine ⟨?_, ?_, ?_, passage.ends⟩
  · intro p
    rw [implemented_append, kept.force]
    exact passage.accounts (kept.accounts p)
  · rw [inForce_append, kept.force]
    exact passage.force
  · rw [posted_append, List.filterMap_append, kept.posts, passage.posts]

/-- A run keeps it. -/
theorem Kept.turns {factory : Factory η} {dealt : List (Dealing η)} {events : List Worker.Event}
    (kept : Kept factory s dealt events) (ts : List (Turn η)) :
    Kept factory (s.turns ts).1 (dealt ++ (s.turns ts).2.1) (events ++ (s.turns ts).2.2) := by
  induction ts generalizing s dealt events with
  | nil =>
    show Kept factory s (dealt ++ []) (events ++ [])
    rw [List.append_nil, List.append_nil]
    exact kept
  | cons t rest ih =>
    have hrest := ih (kept.turn t)
    rw [List.append_assoc, List.append_assoc] at hrest
    exact hrest

theorem kept_fresh (factory : Factory η) (promptRoom replyRoom : Nat) :
    Kept factory (fresh factory promptRoom replyRoom) [] [] :=
  ⟨Worker.accounts_nil factory, rfl, rfl, ⟨fun _ => rfl, fun _ => rfl⟩⟩

/-- The accounts of a worker at its link, after some dealings and events:
1. the prompts that were received while the handler in force implemented them are the hooks that
   run, those that failed and those that succeeded;
2. each hook that succeeded has one response, which was posted, was lost for want of a reader, or
   has not left yet;
3. what was posted are responses, no more of them than hooks that did not fail;
4. there are no more responses of a type than prompts were received of the type paired with it. -/
structure Squared (factory : Factory η) (s : Service η) (dealt : List (Dealing η))
    (events : List Worker.Event) (p : Prompt) : Prop where
  hooks : (implemented factory (.obj []) dealt).count p =
    s.worker.running.countP (·.prompt = p) + events.count (.failed p) + events.count (.succeeded p)
  responses : events.count (.succeeded p) =
    (posted dealt).count (.response p) + events.count (.lost p) + s.worker.ready.count p
  genuine : .unknown ∉ posted dealt
  earned : (posted dealt).count (.response p) + events.count (.failed p) ≤
    (implemented factory (.obj []) dealt).count p
  owed : (posted dealt).count (.response p) ≤ (received dealt).count (.prompt p)

/-- As many responses were posted at the link as the worker saw posted. -/
theorem count_posts (events : List Worker.Event) (p : Prompt) :
    (events.filterMap post?).count (.response p) = events.count (.posted p) := by
  induction events with
  | nil => rfl
  | cons e rest ih =>
    cases e with
    | posted p' =>
      show List.count _ (.response p' :: rest.filterMap post?) = _
      rw [List.count_cons, List.count_cons, ih]
      by_cases hp : p' = p <;> simp [hp]
    | built | called | succeeded | failed | lost =>
      show List.count _ (rest.filterMap post?) = _
      rw [ih, List.count_cons]
      simp

theorem Kept.squared {factory : Factory η} {dealt : List (Dealing η)}
    {events : List Worker.Event} (kept : Kept factory s dealt events) (p : Prompt) :
    Squared factory s dealt events p := by
  obtain ⟨hhooks, hresponses⟩ := kept.accounts p
  have hposts : (posted dealt).count (.response p) = events.count (.posted p) := by
    rw [kept.posts]
    exact count_posts events p
  have hreceived := count_implemented_le factory (.obj []) dealt p
  refine ⟨hhooks, ?_, ?_, ?_, ?_⟩
  · rw [hposts]
    exact hresponses
  · rw [kept.posts]
    intro hmem
    obtain ⟨e, -, he⟩ := List.mem_filterMap.mp hmem
    cases e <;> cases he
  · omega
  · omega

/-- **The accounts of a worker are squared**, whatever it receives, in whatever order its hooks
complete, and whatever its host does at the link. -/
theorem squared_turns (factory : Factory η) (promptRoom replyRoom : Nat) (ts : List (Turn η))
    (p : Prompt) :
    Squared factory ((fresh factory promptRoom replyRoom).turns ts).1
      ((fresh factory promptRoom replyRoom).turns ts).2.1
      ((fresh factory promptRoom replyRoom).turns ts).2.2 p := by
  exact ((kept_fresh factory promptRoom replyRoom).turns ts).squared p

end Service

end Invigilation
