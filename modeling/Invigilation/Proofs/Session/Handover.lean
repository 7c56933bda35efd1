import Invigilation.Proofs.Port.Delivery
import Invigilation.Session.Basic

/-!
# What a session hands over

A message that a session hands over is in the queue to its worker, and reaches it from there: the
worker has taken the first of the messages, and the others wait until it leaves its end. This does
not end with the session, for what was handed over can still be taken.

- `Session.handed`, `Session.taken`: what was handed over, and what the worker took.
- `Session.Phase.Delivers`: a session with a port that delivers.
- `Session.Phase.Delivers.step`, `Session.Phase.Delivers.run`: **every move delivers what it hands
  over**.
- `Session.delivers_run_opening`: what a session delivers from its opening on.
-/

namespace Invigilation.Session

/-- The messages that were handed to the worker. -/
def handed (events : List Event) : List HostMessage :=
  events.filterMap fun
    | .handed m => some m
    | _ => none

/-- The message that the worker takes with a move, if it does. -/
def Phase.taken? : Phase → Move → Option HostMessage
  | .live p _, .far f | .over (some p) _ _, .far f => Port.Entry.taken? (.far f, .far (p.far f).2)
  | _, _ => none

/-- The messages that the worker takes in a run. -/
def taken (s : Session) : List Move → List HostMessage
  | [] => []
  | m :: rest => (s.phase.taken? m).toList ++ (s.step m).1.taken rest

/-- There is a port, and the messages that were given to it were taken by the worker, or wait, or
were lost when it left its end. -/
def Phase.Delivers (given taken : List HostMessage) : Phase → Prop
  | .live p _ | .over (some p) _ _ => p.Delivers given taken
  | .unopened | .over none _ _ => False

variable {r : RoundTrip} {entryPoint : String} {p : Port} {given taken : List HostMessage}

theorem Phase.Delivers.port {s : Session} (h : s.phase.Delivers given taken)
    (hp : s.port? = some p) : p.Delivers given taken := by
  obtain ⟨r, entryPoint, phase⟩ := s
  match phase, h, hp with
  | .live _ _, h, rfl => exact h
  | .over (some _) _ _, h, rfl => exact h

theorem Phase.Delivers.inOrder {phase : Phase} (h : phase.Delivers given taken) :
    taken <+: given := by
  match phase, h with
  | .live _ _, h | .over (some _) _ _, h => exact Channel.Carries.inOrder h

theorem Phase.Delivers.whole {s : Session} (h : s.phase.Delivers given taken)
    (hp : s.port? = some p) (hreads : p.prompts.closed = false) :
    given = taken ++ p.prompts.queue :=
  Channel.Carries.whole (h.port hp) hreads

theorem delivers_ofLink (l : Link) : (Port.ofLink l).Delivers l.prompts.queue [] :=
  ⟨[], (List.append_nil _).symm, fun _ => rfl⟩

/-! ## What the host does -/

theorem handed_ending (p : Port) : handed (ending p) = [] := by
  unfold ending
  split <;> rfl

/-- The end of a session hands nothing over, and leaves what waits. -/
theorem delivers_finish (h : p.Delivers given taken) (now : Nat) (outcome : Outcome) :
    (finish p now outcome).1.Delivers (given ++ handed (finish p now outcome).2) taken := by
  show p.drop.Delivers (given ++ handed (ending p)) taken
  rw [handed_ending, List.append_nil]
  exact h.drop

theorem delivers_conclude (h : p.Delivers given taken) (now : Nat) (outcome : Outcome) :
    (conclude p now outcome).1.Delivers (given ++ handed (conclude p now outcome).2) taken := by
  have hnone : handed (conclude p now outcome).2 = [] := by
    show handed (ending p ++ ending p.terminate) = []
    unfold handed
    rw [List.filterMap_append]
    exact List.append_eq_nil_iff.mpr ⟨handed_ending p, handed_ending p.terminate⟩
  rw [hnone, List.append_nil]
  exact h.terminate.drop

theorem delivers_post (h : p.Delivers given taken) (now : Nat) (pending : List HostMessage) :
    (post r p now pending).1.Delivers (given ++ handed (post r p now pending).2) taken := by
  cases pending with
  | nil =>
    show p.Delivers (given ++ []) taken
    rwa [List.append_nil]
  | cons m rest =>
    have hsend := h.send m
    simp only [post]
    obtain ⟨-, heq⟩ | ⟨-, -, heq⟩ | ⟨-, -, heq⟩ := p.send_cases m <;> rw [heq] at hsend ⊢
    · exact delivers_finish h now _
    · exact hsend
    · exact hsend

theorem delivers_await (h : p.Delivers given taken) (now : Nat) (deadline : Option Nat) :
    (await r p now deadline).1.Delivers (given ++ handed (await r p now deadline).2) taken := by
  have hreceive := h.receive
  have idle : ∀ {q : Port}, q.Delivers given taken → q.Delivers (given ++ []) taken := by
    intro q hq
    rwa [List.append_nil]
  unfold await
  obtain ⟨m, rest, -, heq⟩ | ⟨-, -, heq⟩ | ⟨-, -, heq⟩ := p.receive_cases <;>
    rw [heq] at hreceive ⊢
  · dsimp only
    split
    · exact delivers_conclude hreceive now .answered
    · exact idle hreceive
  · exact delivers_conclude h now _
  · dsimp only
    split
    · exact delivers_conclude h now _
    · exact idle h

/-! ## Whole runs -/

/-- **Every move delivers what it hands over.** -/
theorem Phase.Delivers.step {phase : Phase} (h : phase.Delivers given taken) (r : RoundTrip)
    (entryPoint : String) (m : Move) :
    (stepPhase r entryPoint phase m).1.Delivers
      (given ++ handed (stepPhase r entryPoint phase m).2)
      (taken ++ (phase.taken? m).toList) := by
  cases phase with
  | unopened => exact h.elim
  | «over» port time outcome =>
    cases port with
    | none => exact h.elim
    | some p =>
      -- what waits can still be taken when the session is over
      cases m with
      | far f => exact Port.Delivers.step h (.far f)
      | opening | host | abandon => exact Port.Delivers.idle h
  | live p progress =>
    cases m with
    | far f => cases progress <;> exact Port.Delivers.step h (.far f)
    | opening now spawning => cases progress <;> exact Port.Delivers.idle h
    | abandon now =>
      have hfinish := delivers_finish h now .abandoned
      rw [← List.append_nil taken] at hfinish
      cases progress <;> exact hfinish
    | host now =>
      show Phase.Delivers _ (taken ++ []) _
      rw [List.append_nil]
      cases progress with
      | posting pending => exact delivers_post h now pending
      | awaiting deadline => exact delivers_await h now deadline

/-- A run delivers what it hands over. -/
theorem Phase.Delivers.run {s : Session} (h : s.phase.Delivers given taken) (moves : List Move) :
    (s.run moves).1.phase.Delivers (given ++ handed (s.run moves).2)
      (taken ++ s.taken moves) := by
  induction moves generalizing s given taken with
  | nil =>
    show s.phase.Delivers (given ++ []) (taken ++ [])
    rwa [List.append_nil, List.append_nil]
  | cons m rest ih =>
    have hrest := ih (s := (s.step m).1) (h.step s.request s.entryPoint m)
    rw [List.append_assoc, List.append_assoc] at hrest
    show ((s.step m).1.run rest).1.phase.Delivers
      (given ++ ((s.step m).2 ++ ((s.step m).1.run rest).2).filterMap _) _
    rw [List.filterMap_append]
    exact hrest

/-! ## The opening -/

variable {messages : List HostMessage}

theorem enter_error (h : r.messages = .ok messages) (now : Nat) (e : SessionError) :
    enter r entryPoint now (.error e) =
      (.over none now (.failed e), [.spawned entryPoint false]) := by
  simp only [enter, h]

/-- A session with messages to send is at its worker once it is opened and the worker spawned. -/
theorem step_opening (h : r.messages = .ok messages) (entryPoint : String) (now : Nat)
    (link : Link) : step ⟨r, entryPoint, .unopened⟩ (.opening now (.ok link)) =
      (⟨r, entryPoint, .live (.ofLink link) (.posting messages)⟩, [.spawned entryPoint true]) := by
  simp only [step, stepPhase, enter, h]

/-- A session that has spawned its worker delivers what it hands over, behind what waited then. -/
theorem delivers_run_opening (h : r.messages = .ok messages)
    (entryPoint : String) (now : Nat) (link : Link) (moves : List Move) :
    (run ⟨r, entryPoint, .unopened⟩ (.opening now (.ok link) :: moves)).1.phase.Delivers
      (link.prompts.queue ++
        handed (run ⟨r, entryPoint, .unopened⟩ (.opening now (.ok link) :: moves)).2)
      (Session.taken ⟨r, entryPoint, .unopened⟩ (.opening now (.ok link) :: moves)) := by
  have hstart : Phase.Delivers link.prompts.queue [] (.live (.ofLink link) (.posting messages)) :=
    delivers_ofLink link
  have hrun := hstart.run (s := ⟨r, entryPoint, _⟩) moves
  rw [run, Session.taken, step_opening h]
  exact hrun

end Invigilation.Session
