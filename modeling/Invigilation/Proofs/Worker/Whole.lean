import Invigilation.Proofs.Worker.Dispatch

/-!
# Whole runs of a worker

A worker that is not cut off stops only after its host has left, and by then it has received
everything. What it does at its link on the way is to receive one message or to post one response
at a time.

- `Service.Meets`, `Service.meets_step`: what a move of the worker does at the link.
- `Service.Reaches`: the runs in which a worker is not cut off.
- `Service.Serves`: the whole runs of a worker on some messages.
- `Service.Serves.calls`: **a whole run makes the calls of its messages**.
-/

namespace Invigilation

namespace Service

variable {η : Type} {s s' : Service η} {factory : Factory η}

/-! ## At the link -/

/-- What a move of the worker does at its link, and what passes there. -/
inductive Meets (s : Service η) (m : Move) (s' : Service η) : List (Dealing η) → Prop where
  | quiet (link : s'.link = s.link) (stopped : s'.worker.stopped = s.worker.stopped) :
      Meets s m s' []
  | receives {message : HostMessage} {rest : List HostMessage}
      (live : s.worker.isLive = true) (queue : s.link.prompts.queue = message :: rest)
      (link : s'.link = { s.link with prompts := { s.link.prompts with queue := rest } })
      (stopped : s'.worker.stopped = s.worker.stopped) : Meets s m s' [.received message]
  | posts {reply : WorkerMessage} (live : s.worker.isLive = true)
      (admits : s.link.replies.closed = false)
      (link : s'.link = { s.link with replies :=
        { s.link.replies with queue := s.link.replies.queue ++ [reply] } })
      (stopped : s'.worker.stopped = s.worker.stopped) : Meets s m s' [.posted reply]
  | stops (ended : m = .abort ∨ s.worker.isLive = true ∧ s.link.prompts.isEnded = true)
      (link : s'.link = s.link.farAll [.closeReplies, .closePrompts])
      (stopped : s'.worker.stopped = true) : Meets s m s' []

/-- A response that leaves is queued as the last one, or lost. -/
theorem meets_post (ends : Open s) (hlive : s.worker.isLive = true)
    (hcan : canPost s.link = true) (m : Move) :
    Meets s m
      ⟨s.link.farAll (farSteps s.worker (.post (!s.link.replies.closed))),
        (s.worker.post (!s.link.replies.closed)).1⟩
      (dealings s.link (farSteps s.worker (.post (!s.link.replies.closed)))) := by
  have hsends := ends.sends (stopped_of_isLive hlive)
  have hstopped := (Worker.calm_post s.worker (!s.link.replies.closed)).stopped
  cases hready : s.worker.ready with
  | nil =>
    have hsteps : farSteps s.worker (.post (!s.link.replies.closed)) = [] := by
      simp [farSteps, hready]
    rw [hsteps]
    exact .quiet rfl hstopped
  | cons p rest =>
    have hsteps : farSteps s.worker (.post (!s.link.replies.closed)) =
        [.reply (.response p)] := by
      simp [farSteps, hready]
    rw [hsteps]
    cases hclosed : s.link.replies.closed with
    | true =>
      have hfar : s.link.far (.reply (.response p)) = (s.link, .accepted false) := by
        simp [Link.far, hsends, Channel.send, hclosed]
      have hdealt : dealings (η := η) s.link [.reply (.response p)] = [] := by
        simp [dealings, hfar, dealing?]
      rw [hdealt, ← hclosed]
      exact .quiet (congrArg Prod.fst hfar) hstopped
    | false =>
      have hroom : s.link.replies.hasRoom = true := by simpa [canPost, hclosed] using hcan
      have hfar : s.link.far (.reply (.response p)) = ({ s.link with replies :=
          { s.link.replies with queue := s.link.replies.queue ++ [.response p] } },
          .accepted true) := by
        simp [Link.far, hsends, Channel.send, hclosed, hroom]
      have hdealt : dealings (η := η) s.link [.reply (.response p)] = [.posted (.response p)] := by
        simp [dealings, hfar, dealing?]
      rw [hdealt, ← hclosed]
      exact .posts hlive hclosed (congrArg Prod.fst hfar) hstopped

/-- A move of the worker meets the host at the link in one of these ways. -/
theorem meets_step (ends : Open s) (m : Move) :
    Meets s m (s.step m).1 (dealings s.link (s.effects m)) := by
  obtain ⟨heffects, hstep⟩ | ⟨wm, hmove, hadmits, heffects, hstep⟩ := s.step_cases m
  · rw [heffects, hstep]
    exact .quiet rfl rfl
  rw [heffects, hstep]
  cases m with
  | start =>
    cases hmove
    have hbegin : s.worker.step .start =
        ({ s.worker with started := true }, [.built s.worker.options]) := if_pos hadmits
    rw [hbegin]
    exact .quiet rfl rfl
  | complete place succeeds =>
    cases hmove
    have hcomplete : s.worker.step (.complete place succeeds) =
        s.worker.complete place succeeds := if_pos hadmits
    rw [hcomplete]
    exact .quiet rfl (Worker.calm_complete s.worker place succeeds).stopped
  | receive now =>
    obtain ⟨message, hhead, rfl⟩ := Option.map_eq_some_iff.mp hmove
    obtain ⟨rest, hqueue⟩ := List.head?_eq_some_iff.mp hhead
    have hreceive : s.worker.step (.receive now message) = s.worker.receive now message :=
      if_pos hadmits
    have hstopped : (s.worker.receive now message).1.stopped = s.worker.stopped := by
      cases message <;> rfl
    have hfar := far_takePrompt (ends.reads (stopped_of_isLive hadmits)) hqueue
    have hdealt : dealings (η := η) s.link (farSteps s.worker (.receive now message)) =
        [.received message] := by
      simp [farSteps, dealings, hfar, dealing?]
    rw [hdealt, hreceive]
    exact .receives hadmits hqueue (congrArg Prod.fst hfar) hstopped
  | post =>
    simp only [workerMove?] at hmove
    split at hmove
    · next hcan =>
      cases hmove
      have hpost : s.worker.step (.post (!s.link.replies.closed)) =
          s.worker.post (!s.link.replies.closed) := if_pos hadmits
      rw [hpost]
      exact meets_post ends hadmits hcan .post
    · cases hmove
  | retire =>
    simp only [workerMove?] at hmove
    split at hmove
    · next hend =>
      cases hmove
      have hstop : s.worker.step .stop = ({ s.worker with stopped := true }, []) := if_pos hadmits
      rw [hstop]
      exact .stops (.inr (by simpa using hend)) rfl rfl
    · cases hmove
  | abort =>
    cases hmove
    have hstop : s.worker.step .stop = ({ s.worker with stopped := true }, []) := if_pos hadmits
    rw [hstop]
    exact .stops (.inl rfl) rfl rfl

/-- A response is lost only if the host admits none any more. -/
theorem closed_of_lost {p : Prompt} {m : Move} (h : .lost p ∈ (s.step m).2) :
    s.worker.isLive = true ∧ s.link.replies.closed = true := by
  obtain ⟨-, hstep⟩ | ⟨wm, hmove, hadmits, -, hstep⟩ := s.step_cases m
  · rw [hstep] at h
    cases h
  have hseen : (s.step m).2 = (s.worker.step wm).2 := congrArg (·.2) hstep
  unfold Worker.step at hseen
  rw [hseen, if_pos hadmits] at h
  cases wm with
  | start | stop => simp at h
  | receive now message => cases message <;> simp [Worker.receive] at h
  | complete place succeeds =>
    dsimp only [Worker.complete] at h
    split at h
    · cases h
    · cases succeeds <;> simp at h
  | post taken =>
    refine ⟨hadmits, ?_⟩
    have htaken : taken = !s.link.replies.closed := by
      cases m with
      | start | complete | abort => cases hmove
      | receive now =>
        obtain ⟨message, -, heq⟩ := Option.map_eq_some_iff.mp hmove
        cases heq
      | retire =>
        simp only [workerMove?] at hmove
        split at hmove <;> cases hmove
      | post =>
        simp only [workerMove?] at hmove
        split at hmove <;> cases hmove
        rfl
    cases hready : s.worker.ready with
    | nil => simp [Worker.post, hready] at h
    | cons q rest =>
      cases hclosed : s.link.replies.closed with
      | true => rfl
      | false => simp [Worker.post, hready, htaken, hclosed] at h

/-- A worker that has begun stays so. -/
theorem started_step (h : s.worker.started = true) (m : Move) :
    (s.step m).1.worker.started = true := by
  obtain ⟨-, hstep⟩ | ⟨wm, -, hadmits, -, hstep⟩ := s.step_cases m
  · rw [hstep]
    exact h
  have hworker : (s.step m).1.worker = (s.worker.step wm).1 := congrArg (·.1.worker) hstep
  unfold Worker.step at hworker
  rw [hworker, if_pos hadmits]
  cases wm with
  | start => rfl
  | stop => exact h
  | receive now message => cases message <;> exact h
  | complete place succeeds => exact (Worker.calm_complete _ place succeeds).started.trans h
  | post taken => exact (Worker.calm_post _ taken).started.trans h

/-- Unless it is cut off, it has begun when it stops. -/
theorem started_turn (ends : Open s)
    (hbegun : s.worker.stopped = true → s.worker.started = true) {t : Turn η}
    (ht : t ≠ .work .abort) (hstopped : (s.turn t).1.worker.stopped = true) :
    (s.turn t).1.worker.started = true := by
  cases t with
  | near | refit => exact hbegun hstopped
  | work m =>
    refine started_step ?_ m
    have hmeets := meets_step ends m
    generalize dealings s.link (s.effects m) = passed at hmeets
    cases hmeets with
    | quiet _ hsame => exact hbegun (hsame.symm.trans hstopped)
    | receives _ _ _ hsame => exact hbegun (hsame.symm.trans hstopped)
    | posts _ _ _ hsame => exact hbegun (hsame.symm.trans hstopped)
    | stops ended =>
      obtain rfl | ⟨hlive, -⟩ := ended
      · exact absurd rfl ht
      · simp [Worker.isLive] at hlive
        exact hlive.1

theorem started_turns (ends : Open s)
    (hbegun : s.worker.stopped = true → s.worker.started = true) {ts : List (Turn η)}
    (hts : .work .abort ∉ ts) (hstopped : (s.turns ts).1.worker.stopped = true) :
    (s.turns ts).1.worker.started = true := by
  induction ts generalizing s with
  | nil => exact hbegun hstopped
  | cons t rest ih =>
    rw [List.mem_cons, not_or] at hts
    exact ih (passage_turn ends t).ends (started_turn ends hbegun (Ne.symm hts.1)) hts.2 hstopped

/-! ## Runs -/

theorem turns_append (s : Service η) (ts later : List (Turn η)) :
    s.turns (ts ++ later) =
      (((s.turns ts).1.turns later).1, (s.turns ts).2.1 ++ ((s.turns ts).1.turns later).2.1,
        (s.turns ts).2.2 ++ ((s.turns ts).1.turns later).2.2) := by
  induction ts generalizing s with
  | nil => rfl
  | cons t rest ih =>
    have hrest := ih (s.turn t).1
    simp only [List.cons_append, turns, hrest, List.append_assoc]

theorem admitted_append (s : Service η) (ts later : List (Turn η)) :
    admitted s (ts ++ later) = admitted s ts ++ admitted (s.turns ts).1 later := by
  induction ts generalizing s with
  | nil => rfl
  | cons t rest ih =>
    have hrest := ih (s.turn t).1
    simp only [List.cons_append, admitted, turns, hrest, List.append_assoc]

/-- A worker that is not cut off comes from one state to another, while the host hands over these
messages, and this passes and is seen. -/
def Reaches (s : Service η) (handed : List HostMessage) (dealt : List (Dealing η))
    (seen : List Worker.Event) (s' : Service η) : Prop :=
  ∃ ts : List (Turn η), .work .abort ∉ ts ∧ admitted s ts = handed ∧ s.turns ts = (s', dealt, seen)

variable {handed handed' : List HostMessage} {dealt dealt' : List (Dealing η)}
  {seen seen' : List Worker.Event} {promptRoom replyRoom : Nat}

theorem reaches_refl (s : Service η) : Reaches s [] [] [] s :=
  ⟨[], List.not_mem_nil, rfl, rfl⟩

theorem reaches_turn (s : Service η) {t : Turn η} (h : t ≠ .work .abort) :
    Reaches s (admittedIn s t) (s.turn t).2.1 (s.turn t).2.2 (s.turn t).1 := by
  refine ⟨[t], by simpa using Ne.symm h, List.append_nil _, ?_⟩
  simp only [turns, List.append_nil]

theorem Reaches.trans {s'' : Service η} (h : Reaches s handed dealt seen s')
    (h' : Reaches s' handed' dealt' seen' s'') :
    Reaches s (handed ++ handed') (dealt ++ dealt') (seen ++ seen') s'' := by
  obtain ⟨ts, hts, hhanded, hturns⟩ := h
  obtain ⟨later, hlater, hhanded', hturns'⟩ := h'
  refine ⟨ts ++ later, by simp [hts, hlater], ?_, ?_⟩
  · rw [admitted_append, hhanded, hturns, hhanded']
  · rw [turns_append, hturns, hturns']

/-- The host acts at the link. -/
theorem Reaches.near (h : Reaches s handed dealt seen s') (n : Link.NearStep) :
    Reaches s (handed ++ admission s'.link n) dealt seen { s' with link := s'.link.near n } := by
  have hreaches : Reaches s (handed ++ admission s'.link n) (dealt ++ []) (seen ++ [])
      { s' with link := s'.link.near n } := h.trans (reaches_turn s' (t := .near n) nofun)
  rwa [List.append_nil, List.append_nil] at hreaches

/-- The factory changes its answers. -/
theorem Reaches.refit (h : Reaches s handed dealt seen s') (factory' : Factory η) :
    Reaches s handed (dealt ++ [.refitted factory']) seen
      { s' with worker := { s'.worker with factory := factory' } } := by
  have hreaches : Reaches s (handed ++ []) (dealt ++ [.refitted factory']) (seen ++ [])
      { s' with worker := { s'.worker with factory := factory' } } :=
    h.trans (reaches_turn s' (t := .refit factory') nofun)
  rwa [List.append_nil, List.append_nil] at hreaches

/-- The worker makes a move of its own. -/
theorem Reaches.work (h : Reaches s handed dealt seen s') {m : Move} (hm : m ≠ .abort) :
    Reaches s handed (dealt ++ (s'.turn (.work m)).2.1) (seen ++ (s'.step m).2)
      (s'.step m).1 := by
  have hreaches : Reaches s (handed ++ []) (dealt ++ (s'.turn (.work m)).2.1)
      (seen ++ (s'.step m).2) (s'.step m).1 :=
    h.trans (reaches_turn s' (t := .work m) (by simpa using hm))
  rwa [List.append_nil] at hreaches

/-- The accounts of a worker are kept on the way. -/
theorem Reaches.kept (h : Reaches (fresh factory promptRoom replyRoom) handed dealt seen s) :
    Kept factory s dealt seen := by
  obtain ⟨ts, -, -, hturns⟩ := h
  have hkept := (kept_fresh factory promptRoom replyRoom).turns ts
  rwa [hturns] at hkept

/-- What it received is answered for. -/
theorem Reaches.answering (h : Reaches (fresh factory promptRoom replyRoom) handed dealt seen s) :
    Answering s (received dealt) handed seen False := by
  obtain ⟨ts, hts, hhanded, hturns⟩ := h
  have hanswering := (answering_fresh factory promptRoom replyRoom).turns ts
  rw [hturns, hhanded] at hanswering
  exact hanswering.weaken (Or.rec id hts)

/-- It does not stop before it has begun. -/
theorem Reaches.started (h : Reaches (fresh factory promptRoom replyRoom) handed dealt seen s)
    (hstopped : s.worker.stopped = true) : s.worker.started = true := by
  obtain ⟨ts, hts, -, hturns⟩ := h
  have hbegun := started_turns (s := fresh factory promptRoom replyRoom)
    ⟨fun _ => rfl, fun _ => rfl⟩ nofun hts
  rw [hturns] at hbegun
  exact hbegun hstopped

/-- The whole run of a worker on some messages: the host hands over these, the worker is not cut
off, and it stops. -/
def Serves (factory : Factory η) (promptRoom replyRoom : Nat) (messages : List HostMessage)
    (seen : List Worker.Event) : Prop :=
  ∃ dealt s, Reaches (fresh factory promptRoom replyRoom) messages dealt seen s ∧
    s.worker.stopped = true

/-- **A whole run makes the calls of its messages**, whatever the factory answers and however hooks
complete. -/
theorem Serves.calls {messages : List HostMessage}
    (h : Serves factory promptRoom replyRoom messages seen) :
    Worker.calls seen = Worker.log messages := by
  obtain ⟨dealt, s, hreaches, hstopped⟩ := h
  have hanswering := hreaches.answering
  have hinbox := (hanswering.complete hstopped).resolve_left not_false
  rw [hanswering.calls, if_pos (hreaches.started hstopped), hinbox]

end Service

end Invigilation
