import Invigilation.Proofs.Session.Wait
import Invigilation.Proofs.Worker.Attuned
import Invigilation.Session.Hosted

/-!
# The bond of a session and its worker

A session meets its worker at the link of its port, and all that the host does there is what a host
can do at a link. While the session goes on, the worker does, and so the host never finds that the
worker has left.

- `Port.toLink_send`, `Port.toLink_receive`, `Port.toLink_terminate`, `Port.toLink_drop`: what is
  done to a port, at its link.
- `Hosted.Joined`: while the session goes on, neither side has left the link.
- `Hosted.Bound`: the worker at that link is attuned to what the session has handed to it.
- `Hosted.Bound.session`, `Hosted.Bound.far`: **what either does keeps the bond**.
-/

namespace Invigilation

open Link (FarStep)
open Service (Attuned Dealing)

/-! ## The host's side of the link -/

namespace Port

theorem toLink_farAll (p : Port) (fs : List FarStep) :
    (p.farAll fs).toLink = p.toLink.farAll fs := by
  induction fs generalizing p with
  | nil => rfl
  | cons f rest ih => exact ih (p.far f).1

/-- Sending and receiving are what they are at the link. -/
theorem toLink_send (p : Port) (m : HostMessage) :
    (p.send m).1.toLink = p.toLink.near (.send m) := by
  obtain ⟨hclosed, heq⟩ | ⟨hopen, hroom, heq⟩ | ⟨hopen, hroom, heq⟩ := p.send_cases m
  · simp [heq, Link.near, Channel.send, hclosed]
  · simp [heq, Link.near, Channel.send, hopen, hroom]
  · simp [heq, Link.near, Channel.send, hopen, hroom]

theorem toLink_receive (p : Port) : p.receive.1.toLink = p.toLink.near .receive := by
  obtain ⟨m, rest, hqueue, heq⟩ | ⟨hqueue, -, heq⟩ | ⟨hqueue, -, heq⟩ := p.receive_cases <;>
    simp [heq, Link.near, Channel.receive, hqueue]

/-- A host that ends its worker closes its end for replies. -/
theorem toLink_terminate (p : Port) : p.terminate.toLink = p.toLink.near .close := by
  unfold terminate
  dsimp only
  split <;> rfl

/-- A host that gives its port up leaves both channels. -/
theorem toLink_drop (p : Port) :
    p.drop.toLink = ((p.toLink.near .close).near .leave).near .discard := by
  rw [← toLink_terminate]
  rfl

end Port

namespace Hosted

variable {η : Type} {factory : Factory η} {fits : List (Factory η)} {dealt : List (Dealing η)}
  {handed : List HostMessage} {events : List Worker.Event} {parted : Prop}

/-! ## Sessions that go on -/

/-- The ways in which a session with a worker in its host's process ends. -/
inductive Settled (r : RoundTrip) : Session.Outcome → Prop where
  | answered : Settled r .answered
  | abandoned : Settled r .abandoned
  | timedOut (h : r.timeout.isSome = true) :
      Settled r (.failed (.timedOut r.exchange.response))

/-- A session and a worker at this link. While the session goes on, the worker does, and the host
has left neither channel. -/
inductive Joined (r : RoundTrip) : Session.Phase → Service η → Prop → Prop where
  | live {p : Port} {progress : Session.Progress} {w : Worker η} (stays : w.stopped = false)
      (sends : p.prompts.senderGone = false) (admits : p.replies.closed = false)
      (bounded : ∀ due, progress = .awaiting (some due) → r.timeout.isSome = true) :
      Joined r (.live p progress) ⟨p.toLink, w⟩ False
  | apart {p : Port} {time : Nat} {outcome : Session.Outcome} {w : Worker η}
      (settled : Settled r outcome) : Joined r (.over (some p) time outcome) ⟨p.toLink, w⟩ True

/-- A phase of a session and its worker are joined at some link, where the worker is attuned to what
was handed to it. -/
def Bound (factory : Factory η) (fits : List (Factory η)) (r : RoundTrip) (phase : Session.Phase)
    (w : Worker η) (handed : List HostMessage) (events : List Worker.Event) : Prop :=
  ∃ l dealt parted, Joined r phase ⟨l, w⟩ parted ∧
    Attuned factory fits ⟨l, w⟩ dealt handed events parted

variable {r : RoundTrip} {p : Port} {w : Worker η}

/-- A host that gives its port up. -/
theorem attuned_drop (h : Attuned factory fits ⟨p.toLink, w⟩ dealt handed events parted) :
    Attuned factory fits ⟨p.drop.toLink, w⟩ dealt handed events parted := by
  rw [Port.toLink_drop]
  exact ((h.quiet .close rfl).quiet .leave rfl).quiet .discard rfl

theorem attuned_terminate (h : Attuned factory fits ⟨p.toLink, w⟩ dealt handed events parted) :
    Attuned factory fits ⟨p.terminate.toLink, w⟩ dealt handed events parted := by
  rw [Port.toLink_terminate]
  exact h.quiet .close rfl

/-- The end of a session hands over nothing. -/
theorem bound_finish (h : Attuned factory fits ⟨p.toLink, w⟩ dealt handed events parted) (now : Nat)
    {outcome : Session.Outcome} (settled : Settled r outcome) :
    Bound factory fits r (Session.finish p now outcome).1 w
      (handed ++ Session.handed (Session.finish p now outcome).2) events := by
  have hnone : Session.handed (Session.finish p now outcome).2 = [] := by
    unfold Session.finish Session.ending
    split <;> rfl
  rw [hnone, List.append_nil]
  exact ⟨_, dealt, True, .apart settled, (attuned_drop h).weaken fun _ => trivial⟩

theorem bound_conclude (h : Attuned factory fits ⟨p.toLink, w⟩ dealt handed events parted)
    (now : Nat) {outcome : Session.Outcome} (settled : Settled r outcome) :
    Bound factory fits r (Session.conclude p now outcome).1 w
      (handed ++ Session.handed (Session.conclude p now outcome).2) events := by
  have hnone : Session.handed (Session.ending p) = [] := by
    unfold Session.ending
    split <;> rfl
  have hfinish := bound_finish (attuned_terminate h) now settled
  have hhanded : Session.handed (Session.conclude p now outcome).2 =
      Session.handed (Session.ending p) ++
        Session.handed (Session.finish p.terminate now outcome).2 := List.filterMap_append
  rw [hhanded, hnone]
  exact hfinish

/-- A host that has messages to send hands over the first of them, or waits for room. -/
theorem bound_post (stays : w.stopped = false) (sends : p.prompts.senderGone = false)
    (admits : p.replies.closed = false)
    (h : Attuned factory fits ⟨p.toLink, w⟩ dealt handed events False) (now : Nat)
    (pending : List HostMessage) :
    Bound factory fits r (Session.post r p now pending).1 w
      (handed ++ Session.handed (Session.post r p now pending).2) events := by
  cases pending with
  | nil =>
    refine ⟨_, dealt, False, .live stays sends admits ?_, ?_⟩
    · intro due hdue
      cases htimeout : r.timeout with
      | none => simp [htimeout] at hdue
      | some ms => rfl
    · show Attuned factory fits _ dealt (handed ++ []) events False
      rwa [List.append_nil]
  | cons m rest =>
    -- the worker's end is open, since it has not stopped
    have hopen : p.prompts.closed = false := h.answering.ends.symm.trans stays
    have hnear := h.near (.send m)
    simp only [Session.post]
    obtain ⟨hclosed, -⟩ | ⟨-, hroom, heq⟩ | ⟨-, -, heq⟩ := p.send_cases m
    · rw [hopen] at hclosed
      cases hclosed
    · have hadmission : Service.admission p.toLink (.send m) = [m] := by
        simp [Service.admission, Channel.send, hopen, hroom]
      rw [hadmission] at hnear
      have hlink := p.toLink_send m
      rw [heq] at hlink ⊢
      dsimp only at hlink ⊢
      rw [← hlink] at hnear
      exact ⟨_, dealt, False, .live stays sends admits (by simp), hnear⟩
    · rw [heq]
      show Bound factory fits r (.live p (.posting (m :: rest))) w (handed ++ []) events
      rw [List.append_nil]
      exact ⟨_, dealt, False, .live stays sends admits (by simp), h⟩

/-- A host that waits receives a reply, or sees that its time is up, or waits on. -/
theorem bound_await {deadline : Option Nat} (stays : w.stopped = false)
    (sends : p.prompts.senderGone = false) (admits : p.replies.closed = false)
    (bounded : ∀ due, deadline = some due → r.timeout.isSome = true)
    (h : Attuned factory fits ⟨p.toLink, w⟩ dealt handed events False) (now : Nat) :
    Bound factory fits r (Session.await r p now deadline).1 w
      (handed ++ Session.handed (Session.await r p now deadline).2) events := by
  have hbounded : ∀ due, Session.Progress.awaiting deadline = .awaiting (some due) →
      r.timeout.isSome = true := by
    intro due hdue
    cases hdue
    exact bounded due rfl
  -- the worker's end for replies is open, since it has not stopped
  have hjoined : p.replies.senderGone = false := h.kept.ends.sends stays
  unfold Session.await
  obtain ⟨m, rest, -, heq⟩ | ⟨-, hended, -⟩ | ⟨-, -, heq⟩ := p.receive_cases
  · have hnear := h.quiet .receive rfl
    have hlink := p.toLink_receive
    rw [heq] at hlink ⊢
    dsimp only at hlink ⊢
    rw [← hlink] at hnear
    split
    · exact bound_conclude hnear now .answered
    · show Bound factory fits r (.live _ (.awaiting deadline)) w (handed ++ []) events
      rw [List.append_nil]
      exact ⟨_, dealt, False, .live stays sends admits hbounded, hnear⟩
  · rw [hjoined, admits] at hended
    cases hended
  · rw [heq]
    dsimp only
    split
    · next hdue =>
      refine bound_conclude h now (.timedOut ?_)
      cases deadline with
      | none => cases hdue
      | some due => exact bounded due rfl
    · show Bound factory fits r (.live p (.awaiting deadline)) w (handed ++ []) events
      rw [List.append_nil]
      exact ⟨_, dealt, False, .live stays sends admits hbounded, h⟩

/-- What the session does by itself keeps the bond. -/
theorem Bound.session {phase : Session.Phase} (h : Bound factory fits r phase w handed events)
    (entryPoint : String) {m : Session.Move} (hm : ∀ f, m ≠ .far f) :
    Bound factory fits r (Session.stepPhase r entryPoint phase m).1 w
      (handed ++ Session.handed (Session.stepPhase r entryPoint phase m).2) events := by
  -- a move that changes nothing
  have quiet : Bound factory fits r phase w (handed ++ Session.handed []) events := by
    show Bound factory fits r phase w (handed ++ []) events
    rwa [List.append_nil]
  obtain ⟨l, dealt, parted, joined, attuned⟩ := h
  cases joined with
  | apart settled =>
    cases m with
    | far f => exact absurd rfl (hm f)
    | opening | host | abandon => exact quiet
  | @live p progress w stays sends admits bounded =>
    cases m with
    | far f => exact absurd rfl (hm f)
    | opening => cases progress <;> exact quiet
    | abandon now =>
      have hfinish := bound_finish attuned now (r := r) .abandoned
      cases progress <;> exact hfinish
    | host now =>
      cases progress with
      | posting pending => exact bound_post stays sends admits attuned now pending
      | awaiting deadline =>
        exact bound_await stays sends admits (fun due hdue => bounded due (hdue ▸ rfl)) attuned now

/-! ## What the worker does -/

/-- The worker's steps at the link show nothing of the session. -/
theorem run_far_events (session : Session) (fs : List FarStep) :
    (session.run (fs.map .far)).2 = [] := by
  induction fs generalizing session with
  | nil => rfl
  | cons f rest ih =>
    have hstep : (session.step (.far f)).2 = [] := by
      obtain ⟨r, entryPoint, phase⟩ := session
      match phase with
      | .unopened | .over none _ _ | .over (some _) _ _ => rfl
      | .live p progress => cases progress <;> rfl
    show (session.step (.far f)).2 ++ ((session.step (.far f)).1.run (rest.map .far)).2 = []
    rw [hstep, ih]
    rfl

theorem run_far_over {s : Session} {p : Port} {time : Nat} {outcome : Session.Outcome}
    (hphase : s.phase = .over (some p) time outcome) (fs : List FarStep) :
    (s.run (fs.map .far)).1.phase = .over (some (p.farAll fs)) time outcome := by
  induction fs generalizing s p with
  | nil => exact hphase
  | cons f rest ih =>
    refine ih (s := (s.step (.far f)).1) (p := (p.far f).1) ?_
    rw [Session.phase_step, hphase]
    rfl

/-- The part of the worker in a move that can happen, as the session sees it, keeps the bond. -/
theorem Bound.far {session : Session} {m : Service.Move} (hp : session.port? = some p)
    (h : Bound factory fits r session.phase w handed events)
    (hm : m = .abort → session.isOver = true) :
    Bound factory fits r
      (session.run (((⟨p.toLink, w⟩ : Service η).effects m).map .far)).1.phase
      ((⟨p.toLink, w⟩ : Service η).work m).1 handed
      (events ++ ((⟨p.toLink, w⟩ : Service η).work m).2) := by
  obtain ⟨r', entryPoint, phase⟩ := session
  obtain ⟨l, dealt, parted, joined, attuned⟩ := h
  cases joined with
  | @live p' progress w stays sends admits bounded =>
    cases hp
    have hm' : m ≠ .abort := fun heq => nomatch hm heq
    obtain ⟨dealt', hwork⟩ := attuned.work (fun heq => absurd heq hm')
    obtain ⟨hsends, hadmits⟩ := p.toLink.farAll_kept ((⟨p.toLink, w⟩ : Service η).effects m)
    have hstays := Service.stopped_step attuned.kept.ends stays sends hm'
    rw [Session.run_far rfl]
    have hlink := p.toLink_farAll ((⟨p.toLink, w⟩ : Service η).effects m)
    rw [← hlink] at hsends hadmits
    refine ⟨_, dealt', False, .live hstays (hsends.trans sends) (hadmits.trans admits) bounded, ?_⟩
    rw [hlink]
    exact hwork
  | @apart p' time outcome w settled =>
    cases hp
    obtain ⟨dealt', hwork⟩ := attuned.work (fun _ => trivial)
    rw [run_far_over rfl]
    refine ⟨_, dealt', True, .apart settled, ?_⟩
    rw [Port.toLink_farAll]
    exact hwork

end Hosted

end Invigilation
