import Invigilation.Proofs.Port.Ending

/-!
# What a port delivers

The messages that a host gives to a port reach the worker in order. The worker has taken the first
of them, and the others wait until it leaves its end, whatever the host does meanwhile.

- `Port.run`: a run of steps of both sides, with what came of each.
- `Channel.Carries`: a channel holds what was put into it and not taken out yet.
- `Port.Delivers`, `Port.Delivers.step`, `Port.Delivers.run`: **a port delivers what was sent**.
-/

namespace Invigilation

/-! ## One channel -/

namespace Channel

variable {α : Type} {c : Channel α} {given taken : List α} {intact : Prop}

/-- What was given to a channel was taken, or waits, or was lost behind that; while the channel is
intact, nothing is lost. -/
def Carries (c : Channel α) (given taken : List α) (intact : Prop) : Prop :=
  ∃ lost, given = taken ++ c.queue ++ lost ∧ (intact → lost = [])

theorem Carries.inOrder (h : c.Carries given taken intact) : taken <+: given := by
  obtain ⟨lost, rfl, -⟩ := h
  rw [List.append_assoc]
  exact List.prefix_append _ _

theorem Carries.whole (h : c.Carries given taken intact) (hintact : intact) :
    given = taken ++ c.queue := by
  obtain ⟨lost, rfl, hlost⟩ := h
  rw [hlost hintact, List.append_nil]

/-- An intact channel takes an item in at its end. -/
theorem Carries.put (h : c.Carries given taken intact) (hintact : intact) (a : α) :
    { c with queue := c.queue ++ [a] }.Carries (given ++ [a]) taken intact := by
  refine ⟨[], ?_, fun _ => rfl⟩
  rw [h.whole hintact, List.append_nil, List.append_assoc]

/-- A channel gives an item out at its front. -/
theorem Carries.take (h : c.Carries given taken intact) {a : α} {rest : List α}
    (hqueue : c.queue = a :: rest) :
    { c with queue := rest }.Carries given (taken ++ [a]) intact := by
  obtain ⟨lost, rfl, hlost⟩ := h
  refine ⟨lost, ?_, hlost⟩
  rw [hqueue, List.append_assoc taken [a] rest]
  rfl

/-- A channel that is discarded loses what waits, and is not intact any more. -/
theorem Carries.discard (h : c.Carries given taken intact) {broken : Prop} (hbroken : ¬ broken) :
    c.discard.Carries given taken broken := by
  obtain ⟨lost, rfl, -⟩ := h
  refine ⟨c.queue ++ lost, ?_, fun h => absurd h hbroken⟩
  show _ = taken ++ [] ++ (c.queue ++ lost)
  rw [List.append_nil, List.append_assoc]

end Channel

namespace Link

variable {l : Link}

/-- The outcomes of a reply: it is queued, or the link is as it was. -/
theorem reply_cases (l : Link) (m : WorkerMessage) :
    (l.replies.closed = false ∧ l.replies.hasRoom = true ∧
      l.far (.reply m) =
        ({ l with replies := { l.replies with queue := l.replies.queue ++ [m] } },
          .accepted true)) ∨
    l.far (.reply m) = (l, .closed) ∨ l.far (.reply m) = (l, .accepted false) := by
  by_cases hgone : l.replies.senderGone = true
  · exact .inr (.inl (if_pos hgone))
  by_cases hclosed : l.replies.closed = true
  · exact .inr (.inr (by simp [far, Channel.send, hgone, hclosed]))
  by_cases hroom : l.replies.hasRoom = true
  · exact .inl ⟨by simpa using hclosed, hroom, by simp [far, Channel.send, hgone, hclosed, hroom]⟩
  · exact .inr (.inr (by simp [far, Channel.send, hgone, hclosed, hroom]))

/-- The outcomes of looking for a prompt: the first one is taken, or the link is as it was. -/
theorem takePrompt_cases (l : Link) :
    (∃ m rest, l.prompts.closed = false ∧ l.prompts.queue = m :: rest ∧
      l.far .takePrompt = ({ l with prompts := { l.prompts with queue := rest } }, .taken m)) ∨
    ∃ answer, l.far .takePrompt = (l, answer) ∧ ∀ m, answer ≠ .taken m := by
  by_cases hclosed : l.prompts.closed = true
  · exact .inr ⟨.closed, if_pos hclosed, nofun⟩
  cases hqueue : l.prompts.queue with
  | cons m rest =>
    exact .inl ⟨m, rest, by simpa using hclosed, rfl, by
      simp [far, Channel.receive, hclosed, hqueue]⟩
  | nil =>
    cases hgone : l.prompts.senderGone with
    | true =>
      exact .inr ⟨.disconnected, by simp [far, Channel.receive, hclosed, hqueue, hgone], nofun⟩
    | false => exact .inr ⟨.empty, by simp [far, Channel.receive, hclosed, hqueue, hgone], nofun⟩

end Link

namespace Port

/-! ## Runs -/

/-- A step, and what came of it. -/
abbrev Entry := Step × Answer

namespace Entry

/-- The message whose sending was reported. -/
def sent? : Entry → Option HostMessage
  | (.host (.send m), .host .sent) => some m
  | _ => none

/-- The message that the worker took. -/
def taken? : Entry → Option HostMessage
  | (_, .far (.taken m)) => some m
  | _ => none

/-- The reply that the channel accepted. -/
def accepted? : Entry → Option WorkerMessage
  | (.far (.reply m), .far (.accepted true)) => some m
  | _ => none

/-- The reply that the host received. -/
def received? : Entry → Option WorkerMessage
  | (_, .host (.received m)) => some m
  | _ => none

/-- What the host found when it looked for a reply. -/
def receipt? : Entry → Option HostAnswer
  | (.host .receive, .host answer) => some answer
  | _ => none

end Entry

/-- A run of steps, and its record. -/
def run (p : Port) : List Step → Port × List Entry
  | [] => (p, [])
  | s :: rest => (((p.step s).1.run rest).1, (s, (p.step s).2) :: ((p.step s).1.run rest).2)

/-- What a record says of one step comes in front of what it says of the others. -/
theorem filterMap_cons_toList {α : Type} (f : Entry → Option α) (e : Entry) (record : List Entry) :
    (e :: record).filterMap f = (f e).toList ++ record.filterMap f := by
  rw [List.filterMap_cons]
  cases f e <;> rfl

variable {p : Port} {given taken : List HostMessage}

/-- What the host does with a port that it holds. -/
theorem step_host (hheld : p.held = true) (s : HostStep) :
    p.step (.host s) = match s with
      | .send m => ((p.send m).1, .host (p.send m).2)
      | .receive => (p.receive.1, .host p.receive.2)
      | .terminate => (p.terminate, .host .done)
      | .drop => (p.drop, .host .done) := by
  cases s <;> simp [Port.step, Port.host, hheld]

/-- A host that has given the port up can do nothing with it. -/
theorem step_host_released (hgone : p.held = false) (s : HostStep) :
    p.step (.host s) = (p, .host .noPort) := by
  simp [Port.step, Port.host, hgone]

/-! ## The messages of the host -/

/-- The messages that were given to a port were taken by the worker, or wait, or were lost when it
left its end. -/
def Delivers (p : Port) (given taken : List HostMessage) : Prop :=
  p.prompts.Carries given taken (p.prompts.closed = false)

/-- Where nothing is sent and nothing taken, a port goes on as it was. -/
theorem Delivers.idle (h : p.Delivers given taken) : p.Delivers (given ++ []) (taken ++ []) := by
  rwa [List.append_nil, List.append_nil]

theorem Delivers.send (h : p.Delivers given taken) (m : HostMessage) :
    (p.send m).1.Delivers (given ++ (Entry.sent? (.host (.send m), .host (p.send m).2)).toList)
      taken := by
  obtain ⟨-, heq⟩ | ⟨hopen, -, heq⟩ | ⟨-, -, heq⟩ := p.send_cases m
  · rw [heq]
    show p.Delivers (given ++ []) taken
    rwa [List.append_nil]
  · rw [heq]
    exact Channel.Carries.put h hopen m
  · rw [heq]
    show p.Delivers (given ++ []) taken
    rwa [List.append_nil]

theorem Delivers.receive (h : p.Delivers given taken) : p.receive.1.Delivers given taken := by
  obtain ⟨m, rest, -, heq⟩ | ⟨-, -, heq⟩ | ⟨-, -, heq⟩ := p.receive_cases <;> rw [heq] <;> exact h

theorem Delivers.terminate (h : p.Delivers given taken) : p.terminate.Delivers given taken := by
  unfold Port.terminate
  dsimp only
  split <;> exact h

/-- What waits for the worker when the host gives the port up can still be taken. -/
theorem Delivers.drop (h : p.Delivers given taken) : p.drop.Delivers given taken :=
  h.terminate

theorem Delivers.far (h : p.Delivers given taken) (f : Link.FarStep) :
    (p.far f).1.Delivers given
      (taken ++ (Entry.taken? (.far f, .far (p.far f).2)).toList) := by
  have idle : p.Delivers given (taken ++ []) := by rwa [List.append_nil]
  unfold Port.far
  cases f with
  | reply m =>
    obtain ⟨-, -, heq⟩ | heq | heq := p.toLink.reply_cases m <;> rw [heq] <;> exact idle
  | takePrompt =>
    obtain ⟨m, rest, -, hqueue, heq⟩ | ⟨answer, heq, hnone⟩ := p.toLink.takePrompt_cases
    · rw [heq]
      exact Channel.Carries.take h hqueue
    · rw [heq]
      cases answer with
      | taken m => exact absurd rfl (hnone m)
      | accepted | empty | disconnected | closed | done => exact idle
  | closeReplies => exact idle
  | closePrompts => exact Channel.Carries.discard idle nofun

/-- **Every step delivers what was sent.** -/
theorem Delivers.step (h : p.Delivers given taken) (s : Step) :
    (p.step s).1.Delivers (given ++ (Entry.sent? (s, (p.step s).2)).toList)
      (taken ++ (Entry.taken? (s, (p.step s).2)).toList) := by
  cases s with
  | far f =>
    have hfar := h.far f
    rwa [← List.append_nil given] at hfar
  | host s =>
    cases hheld : p.held with
    | false =>
      rw [step_host_released hheld]
      cases s <;> exact h.idle
    | true =>
      rw [step_host hheld]
      cases s with
      | send m =>
        have hsend := h.send m
        rwa [← List.append_nil taken] at hsend
      | receive => exact h.receive.idle
      | terminate => exact h.terminate.idle
      | drop => exact h.drop.idle

/-- A run delivers what was sent in it. -/
theorem Delivers.run (h : p.Delivers given taken) (steps : List Step) :
    (p.run steps).1.Delivers (given ++ (p.run steps).2.filterMap Entry.sent?)
      (taken ++ (p.run steps).2.filterMap Entry.taken?) := by
  induction steps generalizing p given taken with
  | nil => simpa [Port.run] using h
  | cons s rest ih =>
    rw [Port.run, filterMap_cons_toList, filterMap_cons_toList, ← List.append_assoc,
      ← List.append_assoc]
    exact ih (h.step s)

end Port

end Invigilation
