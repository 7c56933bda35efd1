import Invigilation.Proofs.Port.FarSide
import Invigilation.Session.Spawner

/-!
# What a wait comes to

A worker acts at certain times, and a host waits for one response within one deadline. Which of the
two comes first decides: the response, if it is queued before the worker leaves; the worker's
leaving; or the deadline.

- `Script.heard`: what a worker does in time, with the times.
- `RoundTrip.verdict`: **the outcome of a wait and its time**, read off these.
- `Session.verdictOf_answer`, `Session.verdictOf_leave`, `Session.verdictOf_other`: the verdict act
  by act.
-/

namespace Invigilation

open Link (FarStep)

/-- Whether a step of the worker is a reply of some type. -/
def Link.FarStep.answers (type : MessageType) (f : FarStep) : Bool :=
  f.reply?.any (·.messageType? = some type)

namespace Script

/-- The acts of a script with their times, when its steps begin at a certain time. -/
def timed (now : Nat) : List Step → List (Nat × FarStep)
  | [] => []
  | .act f :: rest => (now, f) :: timed now rest
  | .wait duration :: rest => timed (now + duration) rest

/-- The acts that come before a deadline. -/
def before (deadline : Option Nat) (acts : List (Nat × FarStep)) : List (Nat × FarStep) :=
  acts.filter fun act => deadline.all (act.1 < ·)

/-- What a worker does in time, with the times. What it has done by the time the wait begins, at
time zero, is in time for every deadline. -/
def heard (script : Script) (deadline : Option Nat) : List (Nat × FarStep) :=
  script.upfront.map (0, ·) ++ before deadline (timed 0 script.steps)

end Script

namespace Session

/-- When a response of some type is first queued, if that is before the worker leaves. -/
def answeredAt? (response : MessageType) (acts : List (Nat × FarStep)) : Option Nat :=
  ((acts.takeWhile (·.2 ≠ .closeReplies)).find? (·.2.answers response)).map (·.1)

/-- When the worker leaves. -/
def leftAt? (acts : List (Nat × FarStep)) : Option Nat :=
  (acts.find? (·.2 = .closeReplies)).map (·.1)

/-- The outcome of a wait and its time, when the worker does this in time. -/
def verdictOf (response : MessageType) (deadline : Option Nat) (acts : List (Nat × FarStep)) :
    Option (Nat × Outcome) :=
  match answeredAt? response acts, leftAt? acts, deadline with
  | some time, _, _ => some (time, .answered)
  | none, some time, _ => some (time, .failed (.disconnected response))
  | none, none, some time => some (time, .failed (.timedOut response))
  | none, none, none => none

/-- What is left of a verdict for a caller who loses interest. -/
def within (patience : Nat) : Option (Nat × Outcome) → Nat × Outcome
  | some (time, outcome) => if time ≤ patience then (time, outcome) else (patience, .abandoned)
  | none => (patience, .abandoned)

end Session

/-- The outcome of a round trip and its time, when the worker follows a script. Without one, the
round trip goes on. -/
def RoundTrip.verdict (r : RoundTrip) (script : Script) : Option (Nat × Session.Outcome) :=
  Session.verdictOf r.exchange.response r.timeout (script.heard r.timeout)

namespace Session

variable {response : MessageType} {deadline : Option Nat} {acts : List (Nat × FarStep)}

/-! ## The verdict act by act -/

/-- A response of the right type decides. -/
theorem verdictOf_answer (time : Nat) {f : FarStep} (h : f.answers response = true) :
    verdictOf response deadline ((time, f) :: acts) = some (time, .answered) := by
  have hopen : f ≠ .closeReplies := by
    rintro rfl
    cases h
  have hfirst : answeredAt? response ((time, f) :: acts) = some time := by
    simp [answeredAt?, hopen, h]
  simp only [verdictOf, hfirst]

/-- So does the worker's leaving. -/
theorem verdictOf_leave (time : Nat) :
    verdictOf response deadline ((time, .closeReplies) :: acts) =
      some (time, .failed (.disconnected response)) := by
  have hnone : answeredAt? response ((time, .closeReplies) :: acts) = none := by
    simp [answeredAt?]
  have hfirst : leftAt? ((time, .closeReplies) :: acts) = some time := by
    simp [leftAt?]
  simp only [verdictOf, hnone, hfirst]

/-- Nothing else does. -/
theorem verdictOf_other (time : Nat) {f : FarStep} (hanswer : f.answers response = false)
    (hopen : f ≠ .closeReplies) :
    verdictOf response deadline ((time, f) :: acts) = verdictOf response deadline acts := by
  have hfirst : answeredAt? response ((time, f) :: acts) = answeredAt? response acts := by
    simp [answeredAt?, hopen, hanswer]
  have hleft : leftAt? ((time, f) :: acts) = leftAt? acts := by
    simp [leftAt?, hopen]
  simp only [verdictOf, hfirst, hleft]

/-- Acts of one time decide together, or are passed over together. -/
theorem verdictOf_upfront (time : Nat) (fs : List FarStep) :
    verdictOf response deadline (fs.map (time, ·) ++ acts) =
      if (fs.takeWhile (· ≠ .closeReplies)).any (·.answers response) then some (time, .answered)
      else if .closeReplies ∈ fs then some (time, .failed (.disconnected response))
      else verdictOf response deadline acts := by
  induction fs with
  | nil => rfl
  | cons f rest ih =>
    rw [List.map_cons, List.cons_append]
    by_cases hleave : f = .closeReplies
    · subst hleave
      rw [verdictOf_leave]
      simp
    · cases hanswer : f.answers response with
      | true =>
        rw [verdictOf_answer time hanswer]
        simp [hleave, hanswer]
      | false =>
        rw [verdictOf_other time hanswer hleave, ih]
        have hleave' : ¬ FarStep.closeReplies = f := fun h => hleave h.symm
        simp [hleave, hleave', hanswer]

/-! ## Verdicts and times -/

theorem le_of_mem_timed {now : Nat} {steps : List Script.Step} {act : Nat × FarStep}
    (h : act ∈ Script.timed now steps) : now ≤ act.1 := by
  induction steps generalizing now with
  | nil => cases h
  | cons step rest ih =>
    cases step with
    | act f =>
      rcases List.mem_cons.mp h with rfl | h
      · exact Nat.le_refl now
      · exact ih h
    | wait duration => exact Nat.le_trans (Nat.le_add_right now duration) (ih h)

/-- Nothing that a worker does from the deadline on is in time. -/
theorem before_timed_of_due {now : Nat} {steps : List Script.Step}
    (h : deadline.any (· ≤ now) = true) :
    Script.before deadline (Script.timed now steps) = [] := by
  cases deadline with
  | none => cases h
  | some d =>
    have hd : d ≤ now := by simpa using h
    refine List.filter_eq_nil_iff.mpr fun act hact => ?_
    have hlate := le_of_mem_timed hact
    simp
    omega

/-- A verdict is no earlier than the acts and the deadline. -/
theorem le_of_verdictOf {now time : Nat} {outcome : Outcome}
    (hacts : ∀ act ∈ acts, now ≤ act.1) (hdeadline : ∀ d, deadline = some d → now ≤ d)
    (h : verdictOf response deadline acts = some (time, outcome)) : now ≤ time := by
  unfold verdictOf at h
  cases hanswer : answeredAt? response acts with
  | some t =>
    rw [hanswer] at h
    cases h
    obtain ⟨act, hfind, rfl⟩ := Option.map_eq_some_iff.mp hanswer
    exact hacts act ((List.takeWhile_prefix _).subset (List.mem_of_find?_eq_some hfind))
  | none =>
    rw [hanswer] at h
    cases hleft : leftAt? acts with
    | some t =>
      rw [hleft] at h
      cases h
      obtain ⟨act, hfind, rfl⟩ := Option.map_eq_some_iff.mp hleft
      exact hacts act (List.mem_of_find?_eq_some hfind)
    | none =>
      rw [hleft] at h
      cases deadline with
      | some d =>
        cases h
        exact hdeadline _ rfl
      | none => cases h

/-- A verdict that comes in time for the caller stands. -/
theorem within_of_le {time patience : Nat} {outcome : Outcome} (h : time ≤ patience) :
    within patience (some (time, outcome)) = (time, outcome) := if_pos h

/-- A verdict that comes too late for the caller is none. -/
theorem within_of_lt {patience : Nat} {v : Option (Nat × Outcome)}
    (h : ∀ time outcome, v = some (time, outcome) → patience < time) :
    within patience v = (patience, .abandoned) := by
  match v, h with
  | none, _ => rfl
  | some (time, outcome), h => exact if_neg (Nat.not_le.mpr (h time outcome rfl))

end Session

end Invigilation
