import Invigilation.Port

/-!
# The one ending of a worker

A port can end its worker in two ways, when the host asks for it and when the host gives the port
up, and both must come down to one ending.

- `Port.Live`, `Port.Spent`: before and after the ending.
- `Port.Live.drop`, `Port.Live.terminate_drop`: **either way to give a live port up ends the worker
  once**, be it ended first or not.
- `Port.Live.send`, `Port.Live.receive`, `Port.Live.far`: nothing else ends it.
-/

namespace Invigilation

namespace Port

/-- The worker has not been ended, and the host holds the port. -/
structure Live (p : Port) : Prop where
  armed : p.armed = true
  unended : p.terminations = 0
  held : p.held = true

/-- The worker was ended once, and the host has given the port up. -/
structure Spent (p : Port) : Prop where
  disarmed : p.armed = false
  once : p.terminations = 1
  released : p.held = false

variable {p : Port}

theorem live_ofLink (l : Link) : (ofLink l).Live := ⟨rfl, rfl, rfl⟩

/-! ## What the host does with a live port -/

/-- The outcomes of an attempt to send: the message is queued, or the port is as it was. -/
theorem send_cases (p : Port) (m : HostMessage) :
    (p.prompts.closed = true ∧ p.send m = (p, .refused (.sendFailed m.messageType?))) ∨
    (p.prompts.closed = false ∧ p.prompts.hasRoom = true ∧
      p.send m =
        ({ p with prompts := { p.prompts with queue := p.prompts.queue ++ [m] } }, .sent)) ∨
    (p.prompts.closed = false ∧ p.prompts.hasRoom = false ∧ p.send m = (p, .waiting)) := by
  unfold send Channel.send
  by_cases hclosed : p.prompts.closed = true
  · rw [if_pos hclosed]
    exact .inl ⟨hclosed, rfl⟩
  · rw [if_neg hclosed]
    have hopen : p.prompts.closed = false := Bool.eq_false_iff.mpr hclosed
    by_cases hroom : p.prompts.hasRoom = true
    · rw [if_pos hroom]
      exact .inr (.inl ⟨hopen, hroom, rfl⟩)
    · rw [if_neg hroom]
      exact .inr (.inr ⟨hopen, Bool.eq_false_iff.mpr hroom, rfl⟩)

/-- The outcomes of an attempt to receive: the first reply is taken off the queue, or the queue is
empty and the port as it was. -/
theorem receive_cases (p : Port) :
    (∃ m rest, p.replies.queue = m :: rest ∧
      p.receive = ({ p with replies := { p.replies with queue := rest } }, .received m)) ∨
    (p.replies.queue = [] ∧ (p.replies.senderGone || p.replies.closed) = true ∧
      p.receive = (p, .ended)) ∨
    (p.replies.queue = [] ∧ (p.replies.senderGone || p.replies.closed) = false ∧
      p.receive = (p, .waiting)) := by
  unfold receive Channel.receive
  cases hqueue : p.replies.queue with
  | cons m rest => exact .inl ⟨m, rest, rfl, rfl⟩
  | nil =>
    dsimp only
    by_cases hgone : (p.replies.senderGone || p.replies.closed) = true
    · rw [if_pos hgone]
      exact .inr (.inl ⟨rfl, hgone, rfl⟩)
    · rw [if_neg hgone]
      exact .inr (.inr ⟨rfl, Bool.eq_false_iff.mpr hgone, rfl⟩)

theorem Live.send (h : p.Live) (m : HostMessage) : (p.send m).1.Live := by
  obtain ⟨-, heq⟩ | ⟨-, -, heq⟩ | ⟨-, -, heq⟩ := p.send_cases m <;> rw [heq]
  · exact h
  · exact ⟨h.armed, h.unended, h.held⟩
  · exact h

theorem Live.receive (h : p.Live) : p.receive.1.Live := by
  obtain ⟨m, rest, -, heq⟩ | ⟨-, -, heq⟩ | ⟨-, -, heq⟩ := p.receive_cases <;> rw [heq]
  · exact ⟨h.armed, h.unended, h.held⟩
  · exact h
  · exact h

/-! ## The worker's side does not touch the means to end it -/

theorem Live.far (h : p.Live) (f : Link.FarStep) : (p.far f).1.Live :=
  ⟨h.armed, h.unended, h.held⟩

theorem Spent.far (h : p.Spent) (f : Link.FarStep) : (p.far f).1.Spent :=
  ⟨h.disarmed, h.once, h.released⟩

/-! ## The ending -/

theorem Live.terminate (h : p.Live) :
    p.terminate.armed = false ∧ p.terminate.terminations = 1 := by
  unfold Port.terminate
  simp [h.armed, h.unended]

/-- A port whose worker was ended is given up without another ending. -/
theorem spent_drop_of_disarmed (harmed : p.armed = false) (honce : p.terminations = 1) :
    p.drop.Spent := by
  have hkept : p.terminate = { p with replies := p.replies.close } := by
    unfold Port.terminate
    exact if_neg (by simp [harmed])
  unfold Port.drop
  rw [hkept]
  exact ⟨harmed, honce, rfl⟩

/-- Giving a live port up ends the worker. -/
theorem Live.drop (h : p.Live) : p.drop.Spent := by
  unfold Port.drop
  exact ⟨h.terminate.1, h.terminate.2, rfl⟩

/-- Ending the worker and then giving the port up ends it no second time. -/
theorem Live.terminate_drop (h : p.Live) : p.terminate.drop.Spent :=
  spent_drop_of_disarmed h.terminate.1 h.terminate.2

end Port

end Invigilation
