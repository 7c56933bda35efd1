import Invigilation.Coordinator.Page
import Invigilation.Proofs.Coordinator.Journey

/-!
# The calls of a page

However the calls of a page take turns, each of them stands where its own moves have brought it, and
has shown what belongs to its journey. What the others do, and what is done to the gate, does not
matter for where it stands.

- `Page.seen`: what is seen of one call.
- `Page.call_cases`: what a move of the page does to a call.
- `Page.own`, `Page.alone_run`: **a call stands where its own moves have brought it**, as if it were
  alone.
- `Page.Underway`, `Page.underway_run`: every call of a page is on its journey.
-/

namespace Invigilation

namespace Call

/-- An event without the mark whether the unload warning was attached, which is all that depends on
the gate. -/
def Event.unmarked : Event → Event
  | .requested request _ => .requested request false
  | .detached => .detached
  | .session event => .session event
  | .updated a => .updated a
  | .reloaded => .reloaded

/-- Only requests bear the mark. -/
theorem Event.eq_of_unmarked {e e' : Event}
    (h : ∀ request attached, e ≠ .requested request attached) (heq : e'.unmarked = e.unmarked) :
    e' = e := by
  cases e with
  | requested request attached => exact absurd rfl (h request attached)
  | detached | session | updated | reloaded => cases e' <;> simp_all [Event.unmarked]

/-- Where a move brings a call, and what it shows, does not depend on the gate. -/
theorem step_gate (c : Call) (gate gate' : Gate) (m : Move) :
    (c.step gate m).1 = (c.step gate' m).1 ∧
      (c.step gate m).2.2.map Event.unmarked = (c.step gate' m).2.2.map Event.unmarked := by
  have hphase : ∀ phase, (c.stepPhase gate phase m).1 = (c.stepPhase gate' phase m).1 ∧
      (c.stepPhase gate phase m).2.2.map Event.unmarked =
        (c.stepPhase gate' phase m).2.2.map Event.unmarked := by
    intro phase
    cases phase with
    | «over» result => cases m <;> exact ⟨rfl, rfl⟩
    | inSession s rest => cases m <;> exact ⟨rfl, rfl⟩
    | inRequest a url rest =>
      cases m with
      | proceed | session | abandon => exact ⟨rfl, rfl⟩
      | reply reply =>
        simp only [stepPhase]
        cases Client.concludeUpdate url reply <;> exact ⟨rfl, rfl⟩
    | working stages =>
      cases stages with
      | nil => cases m <;> exact ⟨rfl, rfl⟩
      | cons stage rest =>
        cases m with
        | session | reply | abandon => exact ⟨rfl, rfl⟩
        | proceed =>
          cases stage with
          | detach | session | reload => exact ⟨rfl, rfl⟩
          | update a url =>
            simp only [stepPhase, begin]
            cases c.coordinator.client.updateRequest url a <;> exact ⟨rfl, rfl⟩
  obtain ⟨hsame, hshown⟩ := hphase c.phase
  exact ⟨congrArg (Call.mk c.coordinator c.task) hsame, hshown⟩

theorem run_concat (c : Call) (gate : Gate) (moves : List Move) (m : Move) :
    c.run gate (moves ++ [m]) =
      (((c.run gate moves).1.step (c.run gate moves).2.1 m).1,
        ((c.run gate moves).1.step (c.run gate moves).2.1 m).2.1,
        (c.run gate moves).2.2 ++ ((c.run gate moves).1.step (c.run gate moves).2.1 m).2.2) := by
  induction moves generalizing c gate with
  | nil => simp [run]
  | cons m' rest ih => rw [List.cons_append, run_cons, ih, run_cons, List.append_assoc]

end Call

namespace Page

variable {p : Page} {place : Nat}

/-! ## Runs -/

theorem run_cons (p : Page) (m : Move) (moves : List Move) :
    p.run (m :: moves) =
      (((p.step m).1.run moves).1, (p.step m).2 ++ ((p.step m).1.run moves).2) := rfl

theorem run_append (p : Page) (moves later : List Move) :
    p.run (moves ++ later) =
      (((p.run moves).1.run later).1, (p.run moves).2 ++ ((p.run moves).1.run later).2) := by
  induction moves generalizing p with
  | nil => rfl
  | cons m rest ih =>
    rw [List.cons_append, run_cons, run_cons, ih, List.append_assoc]

/-- A page on which no call was started. -/
def fresh (gate : Gate) : Page := { gate }

/-! ## What is seen of one call -/

/-- What is seen of the call at a place. -/
def seen (place : Nat) (events : List (Nat × Call.Event)) : List Call.Event :=
  events.filterMap fun e => if e.1 = place then some e.2 else none

theorem seen_append (events later : List (Nat × Call.Event)) :
    seen place (events ++ later) = seen place events ++ seen place later :=
  List.filterMap_append

theorem mem_seen {events : List (Nat × Call.Event)} {e : Call.Event} :
    e ∈ seen place events ↔ (place, e) ∈ events := by
  simp [seen]

theorem seen_map_self (events : List Call.Event) :
    seen place (events.map (place, ·)) = events := by
  rw [seen, List.filterMap_map]
  have hown : (fun e : Nat × Call.Event => if e.1 = place then some e.2 else none) ∘ (place, ·) =
      some := funext fun _ => if_pos rfl
  rw [hown, List.filterMap_some]

theorem seen_map_of_ne {other : Nat} (h : other ≠ place) (events : List Call.Event) :
    seen place (events.map (other, ·)) = [] := by
  simp [seen, h]

/-! ## One move -/

/-- A move of a call that was started. -/
theorem step_call {c : Call} (h : p.calls[place]? = some c) (m : Call.Move) :
    p.step (.call place m) =
      (⟨(c.step p.gate m).2.1, p.reloads + countReloads (c.step p.gate m).2.2,
        p.calls.set place (c.step p.gate m).1⟩, (c.step p.gate m).2.2.map (place, ·)) := by
  simp only [step, h]

/-- A move of a call that was not started. -/
theorem step_call_none (h : p.calls[place]? = none) (m : Call.Move) :
    p.step (.call place m) = (p, []) := by
  simp only [step, h]

/-- What a move of the page does to a call: the call is left as it is, or it was started just now,
or the move was its own. -/
theorem call_cases {c : Call} (m : Move) (h : (p.step m).1.calls[place]? = some c) :
    (p.calls[place]? = some c ∧ seen place (p.step m).2 = [] ∧
      ∀ cm, m = .call place cm → False) ∨
    (∃ coordinator task, m = .begin coordinator task ∧ place = p.calls.length ∧
      c = Call.start coordinator task ∧ seen place (p.step m).2 = []) ∨
    ∃ cm before, m = .call place cm ∧ p.calls[place]? = some before ∧
      c = (before.step p.gate cm).1 ∧ seen place (p.step m).2 = (before.step p.gate cm).2.2 := by
  cases m with
  | evaluate s | detach => exact .inl ⟨h, rfl, nofun⟩
  | begin coordinator task =>
    change (p.calls ++ [Call.start coordinator task])[place]? = some c at h
    rcases Nat.lt_trichotomy place p.calls.length with hlt | heq | hgt
    · rw [List.getElem?_append_left hlt] at h
      exact .inl ⟨h, rfl, nofun⟩
    · rw [heq, List.getElem?_concat_length] at h
      exact .inr (.inl ⟨coordinator, task, rfl, heq, (Option.some.inj h).symm, rfl⟩)
    · rw [List.getElem?_eq_none (by simp; omega)] at h
      cases h
  | call other cm =>
    cases hother : p.calls[other]? with
    | none =>
      rw [step_call_none hother] at h ⊢
      refine .inl ⟨h, rfl, ?_⟩
      rintro cm' heq
      cases heq
      rw [hother] at h
      cases h
    | some before =>
      rw [step_call hother] at h ⊢
      by_cases heq : other = place
      · subst heq
        have hlt : other < p.calls.length := (List.getElem?_eq_some_iff.mp hother).1
        rw [List.getElem?_set_self hlt] at h
        exact .inr (.inr ⟨cm, before, rfl, hother, (Option.some.inj h).symm,
          seen_map_self _⟩)
      · rw [List.getElem?_set_ne heq] at h
        refine .inl ⟨h, seen_map_of_ne heq _, ?_⟩
        rintro cm' hcm
        cases hcm
        exact heq rfl

/-- How many calls were started after a move, when some were before. -/
def startedAfter (started : Nat) : Move → Nat
  | .begin _ _ => started + 1
  | .evaluate _ | .detach | .call _ _ => started

/-- Calls are started one after the other, and none is forgotten. -/
theorem length_step (p : Page) (m : Move) :
    (p.step m).1.calls.length = startedAfter p.calls.length m := by
  cases m with
  | evaluate s | detach => rfl
  | begin coordinator task => exact List.length_append
  | call other cm =>
    cases hother : p.calls[other]? with
    | none => rw [step_call_none hother]; rfl
    | some before =>
      rw [step_call hother]
      exact List.length_set

/-! ## The moves of one call -/

/-- The move of the call at a place in a move of the page, once it was started. -/
def ownMove (place started : Nat) : Move → List Call.Move
  | .call other m => if other = place ∧ place < started then [m] else []
  | .evaluate _ | .detach | .begin _ _ => []

/-- The moves of the call at a place among those of a page on which some calls were started. -/
def own (place : Nat) : (started : Nat) → List Move → List Call.Move
  | _, [] => []
  | started, m :: rest => ownMove place started m ++ own place (startedAfter started m) rest

/-- The call at a place stands where its own moves have brought it, and has shown what belongs to
them. -/
structure Alone (place : Nat) (gate : Gate) (done : List Call.Move) (p : Page)
    (events : List (Nat × Call.Event)) : Prop where
  stands : ∀ c, p.calls[place]? = some c →
    c = ((Call.start c.coordinator c.task).run gate done).1
  shows : ∀ c, p.calls[place]? = some c →
    (seen place events).map Call.Event.unmarked =
      ((Call.start c.coordinator c.task).run gate done).2.2.map Call.Event.unmarked
  idle : p.calls.length ≤ place → done = [] ∧ seen place events = []

/-- A call that was not started shows nothing. -/
theorem seen_step_of_le (h : p.calls.length ≤ place) (m : Move) :
    seen place (p.step m).2 = [] := by
  cases m with
  | evaluate | detach | begin => rfl
  | call other cm =>
    cases hother : p.calls[other]? with
    | none => rw [step_call_none hother]; rfl
    | some before =>
      have hlt : other < p.calls.length := (List.getElem?_eq_some_iff.mp hother).1
      rw [step_call hother]
      exact seen_map_of_ne (by omega) _

theorem le_of_length_step {m : Move} (h : (p.step m).1.calls.length ≤ place) :
    p.calls.length ≤ place := by
  rw [length_step] at h
  cases m with
  | begin => exact Nat.le_of_succ_le h
  | evaluate | detach | call => exact h

theorem ownMove_of_other {m : Move} (h : ∀ cm, m = .call place cm → False) (started : Nat) :
    ownMove place started m = [] := by
  cases m with
  | evaluate | detach | begin => rfl
  | call other cm => exact if_neg fun hown => h cm (by rw [hown.1])

theorem ownMove_of_le {started : Nat} (h : started ≤ place) (m : Move) :
    ownMove place started m = [] := by
  cases m with
  | evaluate | detach | begin => rfl
  | call other cm => exact if_neg fun hown => Nat.not_lt.mpr h hown.2

theorem alone_fresh (place : Nat) (gate gate' : Gate) :
    Alone place gate' [] (fresh gate) [] :=
  ⟨(fun _ h => nomatch h), (fun _ h => nomatch h), fun _ => ⟨rfl, rfl⟩⟩

/-- A move of the page is a move of the call, or does not touch it. -/
theorem Alone.step {gate : Gate} {done : List Call.Move} {events : List (Nat × Call.Event)}
    (h : Alone place gate done p events) (m : Move) :
    Alone place gate (done ++ ownMove place p.calls.length m) (p.step m).1
      (events ++ (p.step m).2) := by
  -- where the call stands and what it has shown, whatever the move is
  have hcall : ∀ c, (p.step m).1.calls[place]? = some c →
      c = ((Call.start c.coordinator c.task).run gate
        (done ++ ownMove place p.calls.length m)).1 ∧
      (seen place (events ++ (p.step m).2)).map Call.Event.unmarked =
        ((Call.start c.coordinator c.task).run gate
          (done ++ ownMove place p.calls.length m)).2.2.map Call.Event.unmarked := by
    intro c hc
    rw [seen_append]
    obtain ⟨hsame, hnone, hother⟩ | ⟨coordinator, task, rfl, hplace, rfl, hnone⟩ |
      ⟨cm, before, rfl, hbefore, rfl, hseen⟩ := call_cases m hc
    · rw [ownMove_of_other hother, hnone, List.append_nil, List.append_nil]
      exact ⟨h.stands c hsame, h.shows c hsame⟩
    · obtain ⟨hdone, hunseen⟩ := h.idle (Nat.le_of_eq hplace.symm)
      rw [hdone, hunseen, hnone]
      exact ⟨rfl, rfl⟩
    · have hlt : place < p.calls.length := (List.getElem?_eq_some_iff.mp hbefore).1
      have hown : ownMove place p.calls.length (.call place cm) = [cm] := if_pos ⟨rfl, hlt⟩
      have hstands := h.stands before hbefore
      have hshows := h.shows before hbefore
      rw [hown, hseen, Call.run_concat, List.map_append, List.map_append]
      show (before.step p.gate cm).1 =
          (((Call.start before.coordinator before.task).run gate done).1.step _ cm).1 ∧
        _ = ((Call.start before.coordinator before.task).run gate done).2.2.map _ ++
          (((Call.start before.coordinator before.task).run gate done).1.step _ cm).2.2.map _
      rw [← hstands, ← hshows]
      obtain ⟨hsame, hshown⟩ := before.step_gate p.gate
        ((Call.start before.coordinator before.task).run gate done).2.1 cm
      exact ⟨hsame, congrArg _ hshown⟩
  refine ⟨fun c hc => (hcall c hc).1, fun c hc => (hcall c hc).2, fun hlength => ?_⟩
  have hbefore := le_of_length_step hlength
  obtain ⟨hdone, hunseen⟩ := h.idle hbefore
  rw [seen_append, hdone, hunseen, ownMove_of_le hbefore, seen_step_of_le hbefore]
  exact ⟨rfl, rfl⟩

theorem Alone.run {gate : Gate} {done : List Call.Move} {events : List (Nat × Call.Event)}
    (h : Alone place gate done p events) (moves : List Move) :
    Alone place gate (done ++ own place p.calls.length moves) (p.run moves).1
      (events ++ (p.run moves).2) := by
  induction moves generalizing p done events with
  | nil =>
    show Alone place gate (done ++ []) p (events ++ [])
    rw [List.append_nil, List.append_nil]
    exact h
  | cons m rest ih =>
    have hrest := ih (h.step m)
    rw [length_step, List.append_assoc, List.append_assoc] at hrest
    exact hrest

/-- **A call stands where its own moves have brought it**, whatever the other calls do and whatever
is done to the gate. -/
theorem alone_run (gate gate' : Gate) (moves : List Move) (place : Nat) :
    Alone place gate' (own place 0 moves) ((fresh gate).run moves).1
      ((fresh gate).run moves).2 :=
  (alone_fresh place gate gate').run moves

/-! ## Journeys -/

/-- Every call of the page is on its journey, and nothing was seen of others. -/
structure Underway (p : Page) (events : List (Nat × Call.Event)) : Prop where
  journey : ∀ place c, p.calls[place]? = some c →
    Call.Journey c.coordinator c.task c.phase (seen place events)
  unseen : ∀ place, p.calls.length ≤ place → seen place events = []

theorem underway_fresh (gate : Gate) : Underway (fresh gate) [] :=
  ⟨(fun _ _ h => nomatch h), fun _ _ => rfl⟩

/-- Every move keeps the calls on their journeys. -/
theorem Underway.step {events : List (Nat × Call.Event)} (h : Underway p events) (m : Move) :
    Underway (p.step m).1 (events ++ (p.step m).2) := by
  refine ⟨fun place c hc => ?_, fun place hplace => ?_⟩
  · rw [seen_append]
    obtain ⟨hsame, hnone, -⟩ | ⟨coordinator, task, rfl, hplace, rfl, hnone⟩ |
      ⟨cm, before, rfl, hbefore, rfl, hseen⟩ := call_cases m hc
    · rw [hnone, List.append_nil]
      exact h.journey place c hsame
    · rw [hnone, h.unseen place (Nat.le_of_eq hplace.symm)]
      exact Call.journey_start coordinator task
    · rw [hseen]
      exact (h.journey place before hbefore).step p.gate cm
  · have hbefore := le_of_length_step hplace
    rw [seen_append, h.unseen place hbefore, seen_step_of_le hbefore m]
    rfl

/-- So does every run. -/
theorem Underway.run {events : List (Nat × Call.Event)} (h : Underway p events)
    (moves : List Move) : Underway (p.run moves).1 (events ++ (p.run moves).2) := by
  induction moves generalizing p events with
  | nil =>
    show Underway p (events ++ [])
    rw [List.append_nil]
    exact h
  | cons m rest ih =>
    rw [run_cons, ← List.append_assoc]
    exact ih (h.step m)

/-- **Every call of a page is on its journey**, whoever gets to run when. -/
theorem underway_run (gate : Gate) (moves : List Move) :
    Underway ((fresh gate).run moves).1 ((fresh gate).run moves).2 :=
  (underway_fresh gate).run moves

end Page

end Invigilation
