import Invigilation.Proofs.Session.Life

/-!
# Where a response comes from

A session takes a response for its own only if its own worker has sent it: it was queued when the
worker was spawned, or the worker replied with it since.

- `Session.Move.offers`: the replies that come into a session with a move.
- `Session.Phase.Sourced`: every reply that is queued came with a move of the session.
- `Session.Phase.Sourced.step`, `Session.sourced_run`: **every move keeps it**, and a response that
  is received is such a reply.
-/

namespace Invigilation

/-- A step of the worker queues its reply, if it is one, and nothing else. -/
theorem Port.mem_replies_far {p : Port} {f : Link.FarStep} {m : WorkerMessage}
    (h : m ∈ (p.far f).1.replies.queue) : m ∈ p.replies.queue ∨ f = .reply m := by
  cases f with
  | closeReplies | closePrompts => exact .inl h
  | takePrompt =>
    simp only [Port.far, Link.far] at h
    split at h
    · exact .inl h
    · split at h <;> exact .inl h
  | reply m' =>
    simp only [Port.far, Link.far] at h
    split at h
    · exact .inl h
    · simp only [Channel.send] at h
      split at h
      · exact .inl h
      · split at h
        · rcases List.mem_append.mp h with hold | hnew
          · exact .inl hold
          · rw [List.mem_singleton.mp hnew]
            exact .inr rfl
        · exact .inl h

/-- Sending does not touch the replies. -/
theorem Port.replies_send (p : Port) (m : HostMessage) : (p.send m).1.replies = p.replies := by
  obtain ⟨-, heq⟩ | ⟨-, -, heq⟩ | ⟨-, -, heq⟩ := p.send_cases m <;> rw [heq]

namespace Session

/-- The replies that come into a session with a move. -/
def Move.offers : Move → List WorkerMessage
  | .far (.reply m) => [m]
  | .opening _ (.ok link) => link.replies.queue
  | .opening _ (.error _) | .host _ | .far _ | .abandon _ => []

/-- Every reply that is queued is one of those on offer. -/
def Phase.Sourced (offered : WorkerMessage → Prop) : Phase → Prop
  | .live p _ => ∀ m ∈ p.replies.queue, offered m
  | .unopened | .over _ _ _ => True

variable {r : RoundTrip} {entryPoint : String} {offered : WorkerMessage → Prop} {p : Port}

/-- What is done to a port before the session is over leaves nothing but replies on offer. -/
theorem sourced_post (now : Nat) (pending : List HostMessage)
    (h : ∀ m ∈ p.replies.queue, offered m) : (post r p now pending).1.Sourced offered := by
  cases pending with
  | nil => exact h
  | cons m rest =>
    have hreplies := p.replies_send m
    simp only [post]
    obtain ⟨-, heq⟩ | ⟨-, -, heq⟩ | ⟨-, -, heq⟩ := p.send_cases m <;> rw [heq] at hreplies ⊢
    · trivial
    · exact h
    · exact h

/-- A response that is received was queued. -/
theorem sourced_await (now : Nat) (deadline : Option Nat)
    (h : ∀ m ∈ p.replies.queue, offered m) :
    (await r p now deadline).1.Sourced offered ∧
      ∀ type, .matched type ∈ (await r p now deadline).2 →
        ∃ m, m.messageType? = some type ∧ offered m := by
  have hending : ∀ (q : Port) outcome type, .matched type ∉ (conclude q now outcome).2 := by
    intro q outcome type
    simp [conclude, finish, ending]
  unfold await
  obtain ⟨m, rest, hqueue, heq⟩ | ⟨-, -, heq⟩ | ⟨-, -, heq⟩ := p.receive_cases <;> rw [heq]
  · dsimp only
    split
    · next htype =>
      refine ⟨trivial, fun type hmatched => ?_⟩
      rcases List.mem_cons.mp hmatched with hsame | hlater
      · cases hsame
        exact ⟨m, htype, h m (by rw [hqueue]; exact List.mem_cons_self)⟩
      · exact absurd hlater (hending _ _ _)
    · refine ⟨fun m' hm' => h m' ?_, nofun⟩
      rw [hqueue]
      exact List.mem_cons_of_mem m hm'
  · exact ⟨trivial, fun type hmatched => absurd hmatched (hending _ _ _)⟩
  · dsimp only
    split
    · exact ⟨trivial, fun type hmatched => absurd hmatched (hending _ _ _)⟩
    · exact ⟨h, nofun⟩

/-- What is seen of posting is never a response. -/
theorem matched_notMem_post (now : Nat) (pending : List HostMessage) (type : MessageType) :
    .matched type ∉ (post r p now pending).2 := by
  cases pending with
  | nil => exact nofun
  | cons m rest =>
    simp only [post]
    obtain ⟨-, heq⟩ | ⟨-, -, heq⟩ | ⟨-, -, heq⟩ := p.send_cases m <;> rw [heq] <;>
      simp [finish, ending]

/-- The opening of a session brings the replies that are queued already. -/
theorem sourced_enter (r : RoundTrip) (entryPoint : String) (now : Nat)
    (spawning : Except SessionError Link)
    (h : ∀ reply ∈ (Move.opening now spawning).offers, offered reply) :
    (enter r entryPoint now spawning).1.Sourced offered ∧
      ∀ type, .matched type ∉ (enter r entryPoint now spawning).2 := by
  unfold enter
  cases r.messages with
  | error e => exact ⟨trivial, nofun⟩
  | ok messages =>
    cases spawning with
    | error e => exact ⟨trivial, by simp⟩
    | ok link => exact ⟨h, by simp⟩

/-- Every move keeps it, if the replies that come with it are on offer. -/
theorem Phase.Sourced.step {phase : Phase} (h : phase.Sourced offered) (r : RoundTrip)
    (entryPoint : String) (m : Move) (hm : ∀ reply ∈ m.offers, offered reply) :
    (stepPhase r entryPoint phase m).1.Sourced offered ∧
      ∀ type, .matched type ∈ (stepPhase r entryPoint phase m).2 →
        ∃ reply, reply.messageType? = some type ∧ offered reply := by
  cases phase with
  | unopened =>
    cases m with
    | opening now spawning =>
      obtain ⟨hsourced, hnone⟩ := sourced_enter r entryPoint now spawning hm
      exact ⟨hsourced, fun type hmatched => absurd hmatched (hnone type)⟩
    | abandon | host | far => exact ⟨trivial, nofun⟩
  | «over» port time outcome =>
    cases port <;> cases m <;> exact ⟨trivial, nofun⟩
  | live p progress =>
    cases m with
    | opening now spawning => cases progress <;> exact ⟨h, nofun⟩
    | abandon now =>
      have hnone : ∀ type, .matched type ∉ (finish p now .abandoned).2 := by
        simp [finish, ending]
      cases progress <;> exact ⟨trivial, fun type hmatched => absurd hmatched (hnone type)⟩
    | far f =>
      have hsourced : ∀ reply ∈ (p.far f).1.replies.queue, offered reply := by
        intro reply hreply
        rcases Port.mem_replies_far hreply with hold | rfl
        · exact h reply hold
        · exact hm reply List.mem_cons_self
      cases progress <;> exact ⟨hsourced, nofun⟩
    | host now =>
      cases progress with
      | awaiting deadline => exact sourced_await now deadline h
      | posting pending =>
        exact ⟨sourced_post now pending h, fun type hmatched =>
          absurd hmatched (matched_notMem_post now pending type)⟩

theorem Phase.Sourced.mono {phase : Phase} {offered' : WorkerMessage → Prop}
    (h : phase.Sourced offered) (himp : ∀ m, offered m → offered' m) :
    phase.Sourced offered' := by
  cases phase with
  | live p progress => exact fun m hm => himp m (h m hm)
  | unopened | «over» => trivial

/-- **Every run keeps it.** -/
theorem sourced_run {s : Session} (h : s.phase.Sourced offered) (moves : List Move)
    (hmoves : ∀ m ∈ moves, ∀ reply ∈ m.offers, offered reply) :
    (s.run moves).1.phase.Sourced offered ∧
      ∀ type, .matched type ∈ (s.run moves).2 →
        ∃ reply, reply.messageType? = some type ∧ offered reply := by
  induction moves generalizing s with
  | nil => exact ⟨h, fun _ hseen => nomatch hseen⟩
  | cons m rest ih =>
    obtain ⟨hstep, hnow⟩ := h.step s.request s.entryPoint m (hmoves m List.mem_cons_self)
    have hstep' : (s.step m).1.phase.Sourced offered := hstep
    obtain ⟨hrest, hlater⟩ := ih hstep' fun m' hm' => hmoves m' (List.mem_cons_of_mem m hm')
    rw [run_cons]
    refine ⟨hrest, fun type hseen => ?_⟩
    rcases List.mem_append.mp hseen with hseen | hseen
    · exact hnow type hseen
    · exact hlater type hseen

end Session

end Invigilation
