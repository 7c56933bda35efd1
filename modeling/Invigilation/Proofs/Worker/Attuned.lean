import Invigilation.Proofs.Worker.Whole

/-!
# A worker and a host that does not leave

A worker at its link keeps its accounts and answers its inbox at the same time, whatever its host
does there. As long as the host has left neither channel, the worker goes on and all that it replies
with is posted.

- `Service.notMem_implemented`: a hook that no factory in force implements never runs.
- `Service.stopped_step`, `Service.mem_posts_of_reply`: a worker whose host has not left.
- `Service.Attuned`: what is kept of a worker, what it has dealt in, and what was handed to it.
- `Service.Attuned.near`, `Service.Attuned.work`, `Service.Attuned.refit`: **every turn keeps it**.
-/

namespace Invigilation

open Link (FarStep NearStep)

namespace Link

/-- The worker's side cannot close the host's ends. -/
theorem far_kept (l : Link) (f : FarStep) :
    (l.far f).1.prompts.senderGone = l.prompts.senderGone ∧
      (l.far f).1.replies.closed = l.replies.closed := by
  cases f with
  | closeReplies | closePrompts => exact ⟨rfl, rfl⟩
  | reply m =>
    simp only [far, Channel.send]
    repeat' split
    all_goals exact ⟨rfl, rfl⟩
  | takePrompt =>
    unfold far Channel.receive
    by_cases hclosed : l.prompts.closed = true
    · simp [hclosed]
    · cases hqueue : l.prompts.queue with
      | nil => by_cases hgone : l.prompts.senderGone = true <;> simp [hclosed, hgone]
      | cons m rest => simp [hclosed]

theorem farAll_kept (l : Link) (fs : List FarStep) :
    (l.farAll fs).prompts.senderGone = l.prompts.senderGone ∧
      (l.farAll fs).replies.closed = l.replies.closed := by
  induction fs generalizing l with
  | nil => exact ⟨rfl, rfl⟩
  | cons f rest ih =>
    obtain ⟨hgone, hclosed⟩ := l.far_kept f
    obtain ⟨hgone', hclosed'⟩ := ih (l.far f).1
    exact ⟨hgone'.trans hgone, hclosed'.trans hclosed⟩

end Link

namespace Service

variable {η : Type} {s : Service η}

/-! ## What a hook needs to run -/

/-- A prompt whose hook no factory in force implements, whenever the prompt is received, starts
no hook. -/
theorem notMem_implemented {factory : Factory η} {options : Json} {dealt : List (Dealing η)}
    {p : Prompt}
    (h : ∀ before after, received dealt = before ++ .prompt p :: after →
      ∀ f, f = factory ∨ .refitted f ∈ dealt → f (before.foldl reconfigured options) p = none) :
    p ∉ implemented factory options dealt := by
  induction dealt generalizing factory options with
  | nil => exact List.not_mem_nil
  | cons d rest ih =>
    cases d with
    | posted m =>
      refine ih fun before after hreceived f hf => h before after hreceived f ?_
      exact hf.imp_right (List.mem_cons_of_mem _)
    | refitted factory' =>
      refine ih fun before after hreceived f hf => h before after hreceived f (.inr ?_)
      rcases hf with rfl | hf
      · exact List.mem_cons_self
      · exact List.mem_cons_of_mem _ hf
    | received m =>
      intro hmem
      rcases List.mem_append.mp hmem with hnow | hlater
      · cases m with
        | config | unknown => cases hnow
        | prompt p' =>
          change p ∈ if (factory options p').isSome then [p'] else [] at hnow
          split at hnow
          · next hsome =>
            obtain rfl := List.mem_singleton.mp hnow
            have hnone : factory options p = none := h [] (received rest) rfl factory (.inl rfl)
            rw [hnone] at hsome
            cases hsome
          · cases hnow
      · refine ih (fun before after hreceived f hf => ?_) hlater
        refine h (m :: before) after ?_ f (hf.imp_right (List.mem_cons_of_mem _))
        exact congrArg (List.cons m) hreceived

/-- Only a change of the factory passes as one. -/
theorem refitted_of_mem_turn {t : Turn η} {f : Factory η} (h : .refitted f ∈ (s.turn t).2.1) :
    t = .refit f := by
  have hfar : ∀ (fs : List FarStep) (l : Link), .refitted f ∉ dealings (η := η) l fs := by
    intro fs
    induction fs with
    | nil => exact fun _ => List.not_mem_nil
    | cons g rest ih =>
      intro l hmem
      rcases List.mem_append.mp hmem with hnow | hlater
      · obtain hdealing := Option.mem_toList.mp hnow
        unfold dealing? at hdealing
        split at hdealing <;> cases hdealing
      · exact ih _ hlater
  cases t with
  | work m => exact absurd h (hfar _ _)
  | near n => cases h
  | refit factory =>
    cases List.mem_singleton.mp h
    rfl

/-! ## A worker that cannot stop yet -/

/-- A worker does not stop of itself as long as its host may send more. -/
theorem stopped_step (ends : Open s) (hstopped : s.worker.stopped = false)
    (hmore : s.link.prompts.senderGone = false) {m : Move} (hm : m ≠ .abort) :
    (s.step m).1.worker.stopped = false := by
  have hmeets := meets_step ends m
  generalize dealings s.link (s.effects m) = passed at hmeets
  cases hmeets with
  | quiet _ hsame => exact hsame.trans hstopped
  | receives _ _ _ hsame => exact hsame.trans hstopped
  | posts _ _ _ hsame => exact hsame.trans hstopped
  | stops ended =>
    obtain ⟨-, hend⟩ := ended.resolve_left hm
    simp [Channel.isEnded, hmore, ends.reads hstopped] at hend

/-- While the host admits replies, every reply that is sent is seen as a response that is posted. -/
theorem mem_posts_of_reply (hadmits : s.link.replies.closed = false) {m : Move}
    {reply : WorkerMessage} (h : .reply reply ∈ s.effects m) :
    reply ∈ (s.step m).2.filterMap post? := by
  obtain ⟨heffects, -⟩ | ⟨wm, hmove, hadmitted, heffects, hstep⟩ := s.step_cases m
  · rw [heffects] at h
    cases h
  rw [heffects] at h
  rw [hstep]
  cases wm with
  | start | complete => cases h
  | receive => simp [farSteps] at h
  | stop => simp [farSteps] at h
  | post taken =>
    have htaken : taken = true := by
      cases m with
      | start | complete | abort => cases hmove
      | receive now =>
        obtain ⟨message, -, heq⟩ := Option.map_eq_some_iff.mp hmove
        cases heq
      | retire =>
        simp only [workerMove?] at hmove
        split at hmove <;> cases hmove
      | post =>
        simp only [workerMove?, hadmits] at hmove
        split at hmove <;> cases hmove
        rfl
    have hpost : s.worker.step (.post taken) = s.worker.post taken := if_pos hadmitted
    cases hready : s.worker.ready with
    | nil => simp [farSteps, hready] at h
    | cons p rest =>
      have hreply : reply = .response p := by simpa [farSteps, hready] using h
      rw [hreply, htaken] at *
      simp [hpost, Worker.post, hready, post?]

/-! ## Accounts and inbox -/

/-- A worker at a link keeps its accounts and answers its inbox, when these messages were handed to
it and the factories that came into force are these. It is cut off only if its session is over. -/
structure Attuned (factory : Factory η) (fits : List (Factory η)) (s : Service η)
    (dealt : List (Dealing η)) (handed : List HostMessage) (events : List Worker.Event)
    (parted : Prop) : Prop where
  kept : Kept factory s dealt events
  answering : Answering s (received dealt) handed events parted
  fitted : ∀ f, .refitted f ∈ dealt → f ∈ fits

variable {factory : Factory η} {fits : List (Factory η)} {dealt : List (Dealing η)}
  {handed : List HostMessage} {events : List Worker.Event} {parted : Prop}

theorem attuned_fresh (factory : Factory η) (capacity : Nat) :
    Attuned factory [] ⟨.fresh capacity, { factory }⟩ [] [] [] False :=
  ⟨kept_fresh factory capacity capacity, answering_fresh factory capacity capacity,
    fun _ h => nomatch h⟩

theorem Attuned.weaken {parted' : Prop} (h : Attuned factory fits s dealt handed events parted)
    (himp : parted → parted') : Attuned factory fits s dealt handed events parted' :=
  { h with answering := h.answering.weaken himp }

/-- What the host does at the link keeps it. -/
theorem Attuned.near (h : Attuned factory fits s dealt handed events parted) (n : NearStep) :
    Attuned factory fits { s with link := s.link.near n } dealt
      (handed ++ admission s.link n) events parted := by
  have hkept := h.kept.turn (.near n)
  have hsame : (s.turn (.near n)) = ({ s with link := s.link.near n }, [], []) := rfl
  rw [hsame, List.append_nil, List.append_nil] at hkept
  exact ⟨hkept, h.answering.near n, h.fitted⟩

/-- So does the worker, unless it is cut off before its time. -/
theorem Attuned.work (h : Attuned factory fits s dealt handed events parted) {m : Move}
    (hm : m = .abort → parted) :
    ∃ dealt', Attuned factory fits (s.step m).1 dealt' handed (events ++ (s.step m).2) parted := by
  have hanswering : Answering (s.step m).1
      (received (dealt ++ dealings s.link (s.effects m))) handed (events ++ (s.step m).2)
      (parted ∨ m = .abort) := by
    have hwork := h.answering.work m
    rwa [← received_append] at hwork
  refine ⟨_, h.kept.turn (.work m), hanswering.weaken (Or.rec id hm), fun f hf => ?_⟩
  rcases List.mem_append.mp hf with hold | hnew
  · exact h.fitted f hold
  · cases refitted_of_mem_turn hnew

/-- So does a change of the factory. -/
theorem Attuned.refit (h : Attuned factory fits s dealt handed events parted)
    (factory' : Factory η) :
    ∃ dealt', Attuned factory (fits ++ [factory'])
      { s with worker := { s.worker with factory := factory' } } dealt' handed events parted := by
  have hkept := h.kept.turn (.refit factory')
  have hanswering := h.answering.turn (.refit factory')
  have hsame : s.turn (.refit factory') =
      ({ s with worker := { s.worker with factory := factory' } }, [.refitted factory'], []) := rfl
  have hnone : admittedIn s (.refit factory') = [] := rfl
  rw [hsame, List.append_nil] at hkept
  rw [hsame, hnone, List.append_nil, List.append_nil] at hanswering
  refine ⟨_, hkept, ?_, fun f hf => ?_⟩
  · rw [received_append]
    exact hanswering.weaken (Or.rec id nofun)
  · rcases List.mem_append.mp hf with hold | hnew
    · exact List.mem_append_left _ (h.fitted f hold)
    · cases List.mem_singleton.mp hnew
      exact List.mem_append_right _ List.mem_cons_self

/-- A step of the host that hands over nothing. -/
theorem Attuned.quiet (h : Attuned factory fits s dealt handed events parted) (n : NearStep)
    (hn : admission s.link n = []) :
    Attuned factory fits { s with link := s.link.near n } dealt handed events parted := by
  have hnear := h.near n
  rwa [hn, List.append_nil] at hnear

end Service

end Invigilation
