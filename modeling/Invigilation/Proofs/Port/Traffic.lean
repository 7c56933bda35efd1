import Invigilation.Proofs.Port.Delivery

/-!
# What passes through a port

Host and worker act on the two channels of a port in any order. Whatever they do, each channel hands
on what it was given, in order, and the worker is ended once, by the first step that ends it. A host
that has ended its worker still finds the replies that were queued, and after them only the end.

- `Port.Flow`, `Port.Marked`: what the queues hold, and what the flags of a port tell of its past.
- `Port.Draining.receipts`: what a host finds that has ended its worker.
- `Port.orderly_run`: **a port is a pair of orderly channels**, after every run.
-/

namespace Invigilation

/-! ## Room in a channel -/

namespace Channel

variable {α : Type} {c : Channel α}

/-- An item that there is room for makes no queue too long. -/
theorem length_put {room : Nat} (h : c.capacity = room ∧ c.queue.length ≤ room)
    (hroom : c.hasRoom = true) (a : α) : (c.queue ++ [a]).length ≤ room := by
  have hless : c.queue.length < c.capacity := by simpa [hasRoom] using hroom
  rw [List.length_append, ← h.1]
  exact hless

theorem length_take {room : Nat} (h : c.queue.length ≤ room) {a : α} {rest : List α}
    (hqueue : c.queue = a :: rest) : rest.length ≤ room := by
  rw [hqueue, List.length_cons] at h
  omega

end Channel

namespace Port

/-- The worker was ended in a run: the host asked for it or gave the port up. -/
def IsEnded (steps : List Step) : Prop :=
  .host .terminate ∈ steps ∨ .host .drop ∈ steps

instance (steps : List Step) : Decidable (IsEnded steps) :=
  inferInstanceAs (Decidable (_ ∨ _))

variable {p : Port} {steps : List Step} {record : List Entry} {promptRoom replyRoom : Nat}

/-! ## The queues -/

/-- The queues of a port hold no more than they have room for, and the replies that its record says
are under way. These are lost when the host gives the port up. -/
structure Flow (promptRoom replyRoom : Nat) (record : List Entry) (p : Port) : Prop where
  replies : p.replies.Carries (record.filterMap Entry.accepted?)
    (record.filterMap Entry.received?) (p.held = true)
  promptRoom : p.prompts.capacity = promptRoom ∧ p.prompts.queue.length ≤ promptRoom
  replyRoom : p.replies.capacity = replyRoom ∧ p.replies.queue.length ≤ replyRoom
  /-- A port that was given up admits no reply. -/
  shut : p.held = false → p.replies.closed = true

section Record

variable {α : Type} {f : Entry → Option α} {e : Entry}

theorem filterMap_snoc_some {a : α} (h : f e = some a) :
    (record ++ [e]).filterMap f = record.filterMap f ++ [a] := by
  rw [List.filterMap_append, List.filterMap_cons_some h, List.filterMap_nil]

theorem filterMap_snoc_none (h : f e = none) :
    (record ++ [e]).filterMap f = record.filterMap f := by
  rw [List.filterMap_append, List.filterMap_cons_none h, List.filterMap_nil, List.append_nil]

end Record

/-- A step at which no reply passes. -/
theorem Flow.silent (h : Flow promptRoom replyRoom record p) {e : Entry}
    (haccepted : e.accepted? = none) (hreceived : e.received? = none) :
    Flow promptRoom replyRoom (record ++ [e]) p := by
  obtain ⟨replies, promptRoom, replyRoom, shut⟩ := h
  constructor
  case replies => rwa [filterMap_snoc_none haccepted, filterMap_snoc_none hreceived]
  all_goals assumption

theorem Flow.send (h : Flow promptRoom replyRoom record p) (m : HostMessage) :
    Flow promptRoom replyRoom (record ++ [(.host (.send m), .host (p.send m).2)]) (p.send m).1 := by
  obtain ⟨-, heq⟩ | ⟨-, hroom, heq⟩ | ⟨-, -, heq⟩ := p.send_cases m
  · rw [heq]
    exact h.silent rfl rfl
  · rw [heq]
    have hput : Flow promptRoom replyRoom record
        { p with prompts := { p.prompts with queue := p.prompts.queue ++ [m] } } :=
      ⟨h.replies, ⟨h.promptRoom.1, Channel.length_put h.promptRoom hroom m⟩, h.replyRoom, h.shut⟩
    exact hput.silent rfl rfl
  · rw [heq]
    exact h.silent rfl rfl

theorem Flow.receive (h : Flow promptRoom replyRoom record p) :
    Flow promptRoom replyRoom (record ++ [(.host .receive, .host p.receive.2)]) p.receive.1 := by
  obtain ⟨m, rest, hqueue, heq⟩ | ⟨-, -, heq⟩ | ⟨-, -, heq⟩ := p.receive_cases
  · have hreceived : Entry.received? (.host .receive, .host (.received m)) = some m := rfl
    rw [heq]
    constructor
    case replies =>
      rw [filterMap_snoc_none rfl, filterMap_snoc_some hreceived]
      exact h.replies.take hqueue
    case promptRoom => exact h.promptRoom
    case replyRoom => exact ⟨h.replyRoom.1, Channel.length_take h.replyRoom.2 hqueue⟩
    case shut => exact h.shut
  · rw [heq]
    exact h.silent rfl rfl
  · rw [heq]
    exact h.silent rfl rfl

/-- Ending the worker leaves what is queued. -/
theorem Flow.terminate (h : Flow promptRoom replyRoom record p) :
    Flow promptRoom replyRoom record p.terminate := by
  obtain ⟨replies, promptRoom, replyRoom, -⟩ := h
  unfold Port.terminate
  dsimp only
  split
  · exact ⟨replies, promptRoom, replyRoom, fun _ => rfl⟩
  · exact ⟨replies, promptRoom, replyRoom, fun _ => rfl⟩

/-- Giving the port up loses the replies that are queued. -/
theorem Flow.drop (h : Flow promptRoom replyRoom record p) :
    Flow promptRoom replyRoom record p.drop := by
  obtain ⟨replies, promptRoom, replyRoom, -⟩ := h.terminate
  exact ⟨replies.discard nofun, promptRoom, ⟨replyRoom.1, Nat.zero_le _⟩, fun _ => rfl⟩

theorem Flow.reply (h : Flow promptRoom replyRoom record p) (m : WorkerMessage) :
    Flow promptRoom replyRoom (record ++ [(.far (.reply m), .far (p.far (.reply m)).2)])
      (p.far (.reply m)).1 := by
  unfold Port.far
  obtain ⟨hadmits, hroom, heq⟩ | heq | heq := p.toLink.reply_cases m
  · -- a port that was given up would not admit it
    have hheld : p.held = true := by
      cases hheld : p.held with
      | true => rfl
      | false =>
        rw [h.shut hheld] at hadmits
        cases hadmits
    have haccepted : Entry.accepted? (.far (.reply m), .far (.accepted true)) = some m := rfl
    rw [heq]
    constructor
    case replies =>
      rw [filterMap_snoc_some haccepted, filterMap_snoc_none rfl]
      exact h.replies.put hheld m
    case promptRoom => exact h.promptRoom
    case replyRoom => exact ⟨h.replyRoom.1, Channel.length_put h.replyRoom hroom m⟩
    case shut => exact h.shut
  · rw [heq]
    exact h.silent rfl rfl
  · rw [heq]
    exact h.silent rfl rfl

theorem Flow.takePrompt (h : Flow promptRoom replyRoom record p) :
    Flow promptRoom replyRoom (record ++ [(.far .takePrompt, .far (p.far .takePrompt).2)])
      (p.far .takePrompt).1 := by
  unfold Port.far
  obtain ⟨m, rest, -, hqueue, heq⟩ | ⟨answer, heq, -⟩ := p.toLink.takePrompt_cases
  · rw [heq]
    have htake : Flow promptRoom replyRoom record
        { p with prompts := { p.prompts with queue := rest } } :=
      ⟨h.replies, ⟨h.promptRoom.1, Channel.length_take h.promptRoom.2 hqueue⟩, h.replyRoom, h.shut⟩
    exact htake.silent rfl rfl
  · rw [heq]
    exact h.silent rfl rfl

/-- **Every step keeps what the queues hold in line with the record.** -/
theorem Flow.step (h : Flow promptRoom replyRoom record p) (s : Step) :
    Flow promptRoom replyRoom (record ++ [(s, (p.step s).2)]) (p.step s).1 := by
  cases s with
  | host s =>
    cases hheld : p.held with
    | false =>
      rw [step_host_released hheld]
      exact h.silent rfl rfl
    | true =>
      rw [step_host hheld]
      cases s with
      | send m => exact h.send m
      | receive => exact h.receive
      | terminate => exact h.terminate.silent rfl rfl
      | drop => exact h.drop.silent rfl rfl
  | far f =>
    cases f with
    | reply m => exact h.reply m
    | takePrompt => exact h.takePrompt
    | closeReplies =>
      have hleft : Flow promptRoom replyRoom record (p.far .closeReplies).1 :=
        ⟨h.replies, h.promptRoom, h.replyRoom, h.shut⟩
      exact hleft.silent rfl rfl
    | closePrompts =>
      have hleft : Flow promptRoom replyRoom record (p.far .closePrompts).1 :=
        ⟨h.replies, ⟨h.promptRoom.1, Nat.zero_le _⟩, h.replyRoom, h.shut⟩
      exact hleft.silent rfl rfl

/-! ## The flags -/

/-- The flags of a port tell which of the steps that end something have been taken. -/
structure Marked (steps : List Step) (p : Port) : Prop where
  held : p.held = true ↔ .host .drop ∉ steps
  terminated : p.isTerminated = true ↔ IsEnded steps
  shut : p.replies.closed = true ↔ IsEnded steps
  terminations : p.terminations = if IsEnded steps then 1 else 0
  deaf : p.prompts.closed = true ↔ .far .closePrompts ∈ steps
  gone : p.replies.senderGone = true ↔ .far .closeReplies ∈ steps

/-- The steps after which a flag is different. -/
def Step.isMark : Step → Bool
  | .host .terminate | .host .drop | .far .closeReplies | .far .closePrompts => true
  | .host (.send _) | .host .receive | .far (.reply _) | .far .takePrompt => false

/-- A step that ends nothing leaves no mark. -/
theorem Marked.quiet (h : Marked steps p) {s : Step} (hs : s.isMark = false) :
    Marked (steps ++ [s]) p := by
  have hother : ∀ t : Step, t.isMark = true → (t ∈ steps ++ [s] ↔ t ∈ steps) := by
    intro t ht
    rw [List.mem_append, List.mem_singleton]
    constructor
    · rintro (hmem | rfl)
      · exact hmem
      · exact absurd (ht.symm.trans hs) nofun
    · exact .inl
  have hended : IsEnded (steps ++ [s]) ↔ IsEnded steps :=
    or_congr (hother _ rfl) (hother _ rfl)
  constructor
  case held => rw [h.held, hother _ rfl]
  case terminated => rw [h.terminated, hended]
  case shut => rw [h.shut, hended]
  case terminations => simp only [h.terminations, hended]
  case deaf => rw [h.deaf, hother _ rfl]
  case gone => rw [h.gone, hother _ rfl]

theorem isEnded_terminate (steps : List Step) : IsEnded (steps ++ [.host .terminate]) :=
  .inl (List.mem_append_right _ List.mem_cons_self)

theorem isEnded_drop (steps : List Step) : IsEnded (steps ++ [.host .drop]) :=
  .inr (List.mem_append_right _ List.mem_cons_self)

/-- Ending the worker closes the host's end for replies, and counts if it is the first time. -/
theorem terminate_eq (p : Port) :
    p.terminate = { p with
      replies := p.replies.close, armed := false
      terminations := if p.armed then p.terminations + 1 else p.terminations } := by
  unfold terminate
  dsimp only
  cases harmed : p.armed with
  | true => rfl
  | false =>
    rw [if_neg nofun, if_neg nofun, ← harmed]

/-- The worker is ended by the first step that asks for it, and by no later one. -/
theorem Marked.terminations_terminate (h : Marked steps p) : p.terminate.terminations = 1 := by
  have hcount := h.terminations
  have hterminated := h.terminated
  rw [terminate_eq]
  unfold isTerminated at hterminated
  by_cases hended : IsEnded steps
  · have hdisarmed : p.armed = false := by simpa using hterminated.mpr hended
    rw [if_pos hended] at hcount
    simpa [hdisarmed] using hcount
  · rw [if_neg hended] at hcount
    cases harmed : p.armed with
    | true => simp [hcount]
    | false => exact absurd (hterminated.mp (by rw [harmed]; rfl)) hended

theorem Marked.terminate (h : Marked steps p) :
    Marked (steps ++ [.host .terminate]) p.terminate := by
  have hended := isEnded_terminate steps
  constructor
  case held => simp [terminate_eq, h.held]
  case terminated => simp [terminate_eq, isTerminated, hended]
  case shut => simp [terminate_eq, Channel.close, hended]
  case terminations => rw [h.terminations_terminate, if_pos hended]
  case deaf => simp [terminate_eq, h.deaf]
  case gone => simp [terminate_eq, Channel.close, h.gone]

theorem Marked.drop (h : Marked steps p) : Marked (steps ++ [.host .drop]) p.drop := by
  have hended := isEnded_drop steps
  have hterminate := h.terminate
  unfold Port.drop
  constructor
  case held => simp
  case terminated => simp [terminate_eq, isTerminated, hended]
  case shut => simp [Channel.discard, hended]
  case terminations =>
    show p.terminate.terminations = _
    rw [h.terminations_terminate, if_pos hended]
  case deaf => simp [terminate_eq, Channel.leave, h.deaf]
  case gone => simp [terminate_eq, Channel.close, Channel.discard, h.gone]

/-- A port that is not held was given up. -/
theorem Marked.dropped (h : Marked steps p) (hgone : p.held = false) : .host .drop ∈ steps := by
  by_cases hkept : .host .drop ∈ steps
  · exact hkept
  · exact absurd (h.held.mpr hkept) (by simp [hgone])

/-- As long as the port takes prompts, the worker has not left its end. -/
theorem Marked.hearing (h : Marked steps p) (hopen : p.prompts.closed = false) :
    .far .closePrompts ∉ steps :=
  fun hleft => absurd (h.deaf.mpr hleft) (by simp [hopen])

/-- What a host does with a port that it gave up before leaves no new mark. -/
theorem Marked.released (h : Marked steps p) (hgone : p.held = false) (s : HostStep) :
    Marked (steps ++ [.host s]) p := by
  have hdropped := h.dropped hgone
  have hended : IsEnded steps := .inr hdropped
  have hended' : IsEnded (steps ++ [.host s]) := .inr (List.mem_append_left _ hdropped)
  constructor
  case held => simp [hgone, hdropped]
  case terminated => simp [h.terminated, hended, hended']
  case shut => simp [h.shut, hended, hended']
  case terminations => rw [h.terminations, if_pos hended, if_pos hended']
  case deaf => simp [h.deaf]
  case gone => simp [h.gone]

theorem isEnded_far (f : Link.FarStep) : IsEnded (steps ++ [.far f]) ↔ IsEnded steps := by
  simp [IsEnded]

theorem Marked.closeReplies (h : Marked steps p) :
    Marked (steps ++ [.far .closeReplies]) (p.far .closeReplies).1 := by
  constructor
  case held => simp [Port.far, Link.far, h.held]
  case terminated => rw [isEnded_far, ← h.terminated]; rfl
  case shut => rw [isEnded_far, ← h.shut]; rfl
  case terminations =>
    simp only [isEnded_far]
    exact h.terminations
  case deaf => simp [Port.far, Link.far, h.deaf]
  case gone => simp [Port.far, Link.far, Channel.leave]

theorem Marked.closePrompts (h : Marked steps p) :
    Marked (steps ++ [.far .closePrompts]) (p.far .closePrompts).1 := by
  constructor
  case held => simp [Port.far, Link.far, h.held]
  case terminated => rw [isEnded_far, ← h.terminated]; rfl
  case shut => rw [isEnded_far, ← h.shut]; rfl
  case terminations =>
    simp only [isEnded_far]
    exact h.terminations
  case deaf => simp [Port.far, Link.far, Channel.discard]
  case gone => simp [Port.far, Link.far, h.gone]

/-- **Every step leaves its mark.** -/
theorem Marked.step (h : Marked steps p) (s : Step) : Marked (steps ++ [s]) (p.step s).1 := by
  cases s with
  | host s =>
    cases hheld : p.held with
    | false =>
      rw [step_host_released hheld]
      exact h.released hheld s
    | true =>
      rw [step_host hheld]
      cases s with
      | send m =>
        have hquiet := h.quiet (s := .host (.send m)) rfl
        show Marked _ (p.send m).1
        obtain ⟨-, heq⟩ | ⟨-, -, heq⟩ | ⟨-, -, heq⟩ := p.send_cases m
        · rw [heq]
          exact hquiet
        · rw [heq]
          exact { hquiet with }
        · rw [heq]
          exact hquiet
      | receive =>
        have hquiet := h.quiet (s := .host .receive) rfl
        show Marked _ p.receive.1
        obtain ⟨m, rest, -, heq⟩ | ⟨-, -, heq⟩ | ⟨-, -, heq⟩ := p.receive_cases
        · rw [heq]
          exact { hquiet with }
        · rw [heq]
          exact hquiet
        · rw [heq]
          exact hquiet
      | terminate => exact h.terminate
      | drop => exact h.drop
  | far f =>
    show Marked _ (p.far f).1
    cases f with
    | reply m =>
      have hquiet := h.quiet (s := .far (.reply m)) rfl
      unfold Port.far
      obtain ⟨-, -, heq⟩ | heq | heq := p.toLink.reply_cases m
      · rw [heq]
        exact { hquiet with }
      · rw [heq]
        exact hquiet
      · rw [heq]
        exact hquiet
    | takePrompt =>
      have hquiet := h.quiet (s := .far .takePrompt) rfl
      unfold Port.far
      obtain ⟨m, rest, -, -, heq⟩ | ⟨answer, heq, -⟩ := p.toLink.takePrompt_cases
      · rw [heq]
        exact { hquiet with }
      · rw [heq]
        exact hquiet
    | closeReplies => exact h.closeReplies
    | closePrompts => exact h.closePrompts

/-! ## Whole runs -/

/-- A port on which nothing has happened, with room for so many messages in either direction. -/
def opened (promptRoom replyRoom : Nat) : Port :=
  ofLink ⟨{ capacity := promptRoom }, { capacity := replyRoom }⟩

theorem flow_opened (promptRoom replyRoom : Nat) :
    Flow promptRoom replyRoom [] (opened promptRoom replyRoom) where
  replies := ⟨[], rfl, fun _ => rfl⟩
  promptRoom := ⟨rfl, Nat.zero_le _⟩
  replyRoom := ⟨rfl, Nat.zero_le _⟩
  shut := nofun

theorem delivers_opened (promptRoom replyRoom : Nat) :
    (opened promptRoom replyRoom).Delivers [] [] :=
  ⟨[], rfl, fun _ => rfl⟩

theorem marked_opened (promptRoom replyRoom : Nat) : Marked [] (opened promptRoom replyRoom) := by
  constructor <;> simp [opened, ofLink, isTerminated, IsEnded]

/-- A run keeps what the queues hold in line with the record. -/
theorem Flow.run (h : Flow promptRoom replyRoom record p) (steps : List Step) :
    Flow promptRoom replyRoom (record ++ (p.run steps).2) (p.run steps).1 := by
  induction steps generalizing p record with
  | nil => rwa [Port.run, List.append_nil]
  | cons s rest ih =>
    have hrest := ih (h.step s)
    rwa [List.append_assoc] at hrest

/-- A run leaves the marks of its steps. -/
theorem Marked.run (h : Marked steps p) (later : List Step) :
    Marked (steps ++ later) (p.run later).1 := by
  induction later generalizing p steps with
  | nil => rwa [Port.run, List.append_nil]
  | cons s rest ih =>
    have hrest := ih (h.step s)
    rwa [List.append_assoc] at hrest

/-! ## After the worker was ended -/

/-- What one step makes of a worker that was ended: it stays so, and no reply is accepted. -/
theorem Marked.accepted_step (h : Marked steps p) (hended : IsEnded steps) (s : Step) :
    IsEnded (steps ++ [s]) ∧ Entry.accepted? (s, (p.step s).2) = none := by
  refine ⟨hended.imp (List.mem_append_left _) (List.mem_append_left _), ?_⟩
  cases s with
  | host s => rfl
  | far f =>
    cases f with
    | takePrompt | closeReplies | closePrompts => rfl
    | reply m =>
      show Entry.accepted? (_, .far (p.toLink.far (.reply m)).2) = none
      obtain ⟨hadmits, -, -⟩ | heq | heq := p.toLink.reply_cases m
      · rw [h.shut.mpr hended] at hadmits
        cases hadmits
      · rw [heq]
        rfl
      · rw [heq]
        rfl

/-- **No reply is accepted any more once the worker was ended.** -/
theorem Marked.accepted_run (h : Marked steps p) (hended : IsEnded steps) (later : List Step) :
    (p.run later).2.filterMap Entry.accepted? = [] := by
  induction later generalizing p steps with
  | nil => rfl
  | cons s rest ih =>
    obtain ⟨hstays, hnone⟩ := h.accepted_step hended s
    rw [Port.run, List.filterMap_cons_none hnone]
    exact ih (h.step s) hstays

/-- A port that the host holds, whose worker was ended, and in which these replies wait. -/
structure Draining (waiting : List WorkerMessage) (p : Port) : Prop where
  held : p.held = true
  shut : p.replies.closed = true
  queue : p.replies.queue = waiting

variable {waiting : List WorkerMessage}

/-- Only the host takes replies from a port whose worker was ended. -/
theorem Draining.step (h : Draining waiting p) {s : Step} (hkept : s ≠ .host .drop)
    (hother : s ≠ .host .receive) :
    Draining waiting (p.step s).1 ∧ Entry.receipt? (s, (p.step s).2) = none := by
  obtain ⟨held, shut, queue⟩ := h
  cases s with
  | host s =>
    rw [step_host held]
    cases s with
    | receive => exact absurd rfl hother
    | drop => exact absurd rfl hkept
    | terminate => exact ⟨by constructor <;> simp [terminate_eq, Channel.close, held, queue], rfl⟩
    | send m =>
      refine ⟨?_, rfl⟩
      show Draining waiting (p.send m).1
      obtain ⟨-, heq⟩ | ⟨-, -, heq⟩ | ⟨-, -, heq⟩ := p.send_cases m
      · rw [heq]
        exact ⟨held, shut, queue⟩
      · rw [heq]
        exact ⟨held, shut, queue⟩
      · rw [heq]
        exact ⟨held, shut, queue⟩
  | far f =>
    refine ⟨?_, rfl⟩
    show Draining waiting { p with toLink := (p.toLink.far f).1 }
    cases f with
    | closeReplies | closePrompts => exact ⟨held, shut, queue⟩
    | takePrompt =>
      obtain ⟨m, rest, -, -, heq⟩ | ⟨answer, heq, -⟩ := p.toLink.takePrompt_cases
      · rw [heq]
        exact ⟨held, shut, queue⟩
      · rw [heq]
        exact ⟨held, shut, queue⟩
    | reply m =>
      obtain ⟨hadmits, -, -⟩ | heq | heq := p.toLink.reply_cases m
      · rw [shut] at hadmits
        cases hadmits
      · rw [heq]
        exact ⟨held, shut, queue⟩
      · rw [heq]
        exact ⟨held, shut, queue⟩

/-- The host takes the first reply that waits. -/
theorem Draining.receive {m : WorkerMessage} (h : Draining (m :: waiting) p) :
    Draining waiting (p.step (.host .receive)).1 ∧
      Entry.receipt? (.host .receive, (p.step (.host .receive)).2) = some (.received m) := by
  have heq : p.receive =
      ({ p with replies := { p.replies with queue := waiting } }, .received m) := by
    simp [Port.receive, Channel.receive, h.queue]
  rw [step_host h.held, heq]
  exact ⟨⟨h.held, h.shut, rfl⟩, rfl⟩

/-- When none waits, the host finds the end, and the port is as it was. -/
theorem Draining.receive_nil (h : Draining [] p) :
    Draining [] (p.step (.host .receive)).1 ∧
      Entry.receipt? (.host .receive, (p.step (.host .receive)).2) = some .ended := by
  have heq : p.receive = (p, .ended) := by
    simp [Port.receive, Channel.receive, h.queue, h.shut]
  rw [step_host h.held, heq]
  exact ⟨h, rfl⟩

/-- What a host finds that looks for replies so many times: those that wait, and then the end. -/
def findings (waiting : List WorkerMessage) (looks : Nat) : List HostAnswer :=
  (waiting.map HostAnswer.received ++ List.replicate looks HostAnswer.ended).take looks

theorem findings_nil (looks : Nat) :
    findings [] (looks + 1) = .ended :: findings [] looks := by
  simp [findings, List.replicate_succ]

theorem findings_cons (m : WorkerMessage) (waiting : List WorkerMessage) (looks : Nat) :
    findings (m :: waiting) (looks + 1) = .received m :: findings waiting looks := by
  simp [findings, List.take_append, List.take_replicate]
  omega

/-- **The host of a worker that was ended finds the replies that wait, in order, and then only the
end.** -/
theorem Draining.receipts (h : Draining waiting p) (later : List Step)
    (hkept : .host .drop ∉ later) :
    (p.run later).2.filterMap Entry.receipt? =
      findings waiting (later.count (.host .receive)) := by
  induction later generalizing p waiting with
  | nil => simp [Port.run, findings]
  | cons s rest ih =>
    rw [List.mem_cons, not_or] at hkept
    obtain ⟨hs, hrest⟩ := hkept
    rw [Port.run]
    by_cases hreceive : s = .host .receive
    · rw [hreceive, List.count_cons_self]
      cases waiting with
      | nil =>
        obtain ⟨hafter, hfound⟩ := h.receive_nil
        rw [List.filterMap_cons_some hfound, ih hafter hrest, findings_nil]
      | cons m waiting =>
        obtain ⟨hafter, hfound⟩ := h.receive
        rw [List.filterMap_cons_some hfound, ih hafter hrest, findings_cons]
    · obtain ⟨hafter, hnone⟩ := h.step (Ne.symm hs) hreceive
      rw [List.filterMap_cons_none hnone, ih hafter hrest, List.count_cons_of_ne hreceive]

/-! ## The answers -/

/-- What a host finds out that tries to send. -/
theorem Marked.sending (h : Marked steps p) (m : HostMessage) :
    (p.step (.host (.send m))).2 = .host (
      if .host .drop ∈ steps then .noPort
      else if .far .closePrompts ∈ steps then .refused (.sendFailed m.messageType?)
      else if p.prompts.hasRoom then .sent else .waiting) := by
  cases hheld : p.held with
  | false =>
    rw [step_host_released hheld, if_pos (h.dropped hheld)]
  | true =>
    rw [step_host hheld, if_neg (h.held.mp hheld)]
    show Answer.host (p.send m).2 = _
    obtain ⟨hclosed, heq⟩ | ⟨hopen, hroom, heq⟩ | ⟨hopen, hroom, heq⟩ := p.send_cases m
    · rw [heq, if_pos (h.deaf.mp hclosed)]
    · rw [heq, if_neg (h.hearing hopen), if_pos hroom]
    · rw [heq, if_neg (h.hearing hopen), if_neg (by simp [hroom])]

/-- A refusal names the type of the message. -/
theorem Marked.refusal (h : Marked steps p) {m : HostMessage} {e : SessionError}
    (hrefused : (p.step (.host (.send m))).2 = .host (.refused e)) :
    e.message = "worker_send_failed:" ++ messageTypeName m.messageType? := by
  rw [h.sending] at hrefused
  split at hrefused
  · cases hrefused
  split at hrefused
  · cases hrefused
    rfl
  split at hrefused
  · cases hrefused
  · cases hrefused

/-- A host finds the end when no reply waits and none can come. -/
theorem Marked.receiving (h : Marked steps p) :
    (p.step (.host .receive)).2 = .host .ended ↔
      .host .drop ∉ steps ∧ p.replies.queue = [] ∧
        (IsEnded steps ∨ .far .closeReplies ∈ steps) := by
  rw [← h.held, ← h.shut, ← h.gone]
  cases hheld : p.held with
  | false => simp [step_host_released hheld]
  | true =>
    rw [step_host hheld]
    obtain ⟨m, rest, hqueue, heq⟩ | ⟨hqueue, hgone, heq⟩ | ⟨hqueue, hgone, heq⟩ := p.receive_cases
    · simp [heq, hqueue]
    · simp [heq, hqueue, ← Bool.or_eq_true, Bool.or_comm, hgone]
    · simp_all

/-! ## The port as a pair of channels -/

/-- What is known of a port with room for so many messages in either direction, after steps that
left a record. -/
structure Orderly (promptRoom replyRoom : Nat) (steps : List Step) (record : List Entry)
    (p : Port) : Prop where
  /-- The worker has taken the first of the messages that were reported sent, in order. -/
  taken : record.filterMap Entry.taken? <+: record.filterMap Entry.sent?
  /-- The others wait, unless the worker has left its end. -/
  unread : .far .closePrompts ∉ steps →
    record.filterMap Entry.sent? = record.filterMap Entry.taken? ++ p.prompts.queue
  /-- The host has received the first of the replies that were accepted, in order. -/
  received : record.filterMap Entry.received? <+: record.filterMap Entry.accepted?
  /-- The others wait, unless the host gave the port up. -/
  waiting : .host .drop ∉ steps →
    record.filterMap Entry.accepted? = record.filterMap Entry.received? ++ p.replies.queue
  bounded : p.prompts.queue.length ≤ promptRoom ∧ p.replies.queue.length ≤ replyRoom
  /-- The worker was ended once, if at all, and the port tells so. -/
  ended : p.terminations = (if IsEnded steps then 1 else 0) ∧
    (p.isTerminated = true ↔ IsEnded steps)
  /-- After that no reply is accepted, whatever is done. -/
  shut : IsEnded steps → ∀ later, (p.run later).2.filterMap Entry.accepted? = []
  /-- The host finds those that were accepted before, and then the end, whatever else is done. -/
  drained : IsEnded steps → .host .drop ∉ steps → ∀ later, .host .drop ∉ later →
    (p.run later).2.filterMap Entry.receipt? =
      findings p.replies.queue (later.count (.host .receive))
  /-- The host finds the end when no reply waits, and the worker was ended or has left. -/
  receiving : (p.step (.host .receive)).2 = .host .ended ↔
    .host .drop ∉ steps ∧ p.replies.queue = [] ∧ (IsEnded steps ∨ .far .closeReplies ∈ steps)
  /-- A message is refused when the worker does not read any more, and waits while there is no
  room. -/
  sending : ∀ m, (p.step (.host (.send m))).2 = .host (
    if .host .drop ∈ steps then .noPort
    else if .far .closePrompts ∈ steps then .refused (.sendFailed m.messageType?)
    else if p.prompts.queue.length < promptRoom then .sent else .waiting)
  /-- The refusal names the type of the message. -/
  refusal : ∀ m e, (p.step (.host (.send m))).2 = .host (.refused e) →
    e.message = "worker_send_failed:" ++ messageTypeName m.messageType?

/-- **A port is a pair of orderly channels**, after every run of either side's steps. -/
theorem orderly_run (promptRoom replyRoom : Nat) (steps : List Step) :
    Orderly promptRoom replyRoom steps ((opened promptRoom replyRoom).run steps).2
      ((opened promptRoom replyRoom).run steps).1 := by
  have hflow := (flow_opened promptRoom replyRoom).run steps
  have hdelivers := (delivers_opened promptRoom replyRoom).run steps
  have hmarked := (marked_opened promptRoom replyRoom).run steps
  rw [List.nil_append] at hflow hmarked
  rw [List.nil_append, List.nil_append] at hdelivers
  constructor
  case taken => exact hdelivers.inOrder
  case unread =>
    exact fun hreads => hdelivers.whole (Bool.eq_false_iff.mpr (mt hmarked.deaf.mp hreads))
  case received => exact hflow.replies.inOrder
  case waiting => exact fun hkept => hflow.replies.whole (hmarked.held.mpr hkept)
  case bounded => exact ⟨hflow.promptRoom.2, hflow.replyRoom.2⟩
  case ended => exact ⟨hmarked.terminations, hmarked.terminated⟩
  case shut => exact hmarked.accepted_run
  case drained =>
    intro hended hheld later hkept
    exact Draining.receipts ⟨hmarked.held.mpr hheld, hmarked.shut.mpr hended, rfl⟩ later hkept
  case receiving => exact hmarked.receiving
  case sending =>
    intro m
    simpa [Channel.hasRoom, hflow.promptRoom.1] using hmarked.sending m
  case refusal => exact fun m e => hmarked.refusal

end Port

end Invigilation
