import Mathlib.Data.List.Perm.Basic
import Invigilation.Worker.Basic

/-!
# The accounts of a worker

A worker loses no hook and no response on the way. Every hook it started runs, has failed or has
succeeded, and every response of a hook that succeeded was posted, was lost or is still ready.

- `implements`: the hooks that a message starts.
- `Worker.Accounts`: the two balances, for each prompt.
- `Worker.Accounts.step`: **every move keeps the balances**, in whatever order hooks complete.
-/

namespace Invigilation

variable {η : Type}

/-- The prompt of a message, if a handler implements it. -/
def implements (handler : Handler η) : HostMessage → List Prompt
  | .prompt p => if (handler p).isSome then [p] else []
  | .config _ | .unknown => []

/-- A message starts a hook only if it is its prompt. -/
theorem count_implements_le (handler : Handler η) (m : HostMessage) (p : Prompt) :
    (implements handler m).count p ≤ [m].count (.prompt p) := by
  cases m with
  | config | unknown => exact Nat.zero_le _
  | prompt p' =>
    show (if (handler p').isSome then [p'] else []).count p ≤ _
    split
    · rw [List.count_singleton, List.count_singleton]
      by_cases hp : p' = p <;> simp [hp]
    · exact Nat.zero_le _

namespace Worker

/-- The hooks that a move starts. -/
def launches (w : Worker η) : Move → List Prompt
  | .receive _ m => if w.isLive then implements (w.factory w.options) m else []
  | .start | .complete _ _ | .post _ | .stop => []

/-- What has become of the hooks of a prompt, when these were started and this was seen. -/
structure Accounts (hooks : List Prompt) (w : Worker η) (events : List Event) (p : Prompt) :
    Prop where
  hooks : hooks.count p =
    w.running.countP (·.prompt = p) + events.count (.failed p) + events.count (.succeeded p)
  responses : events.count (.succeeded p) =
    events.count (.posted p) + events.count (.lost p) + w.ready.count p

variable {w : Worker η} {hooks : List Prompt} {events : List Event} {p : Prompt}

/-- A worker that has received nothing owes nothing. -/
theorem accounts_nil (factory : Factory η) (p : Prompt) :
    Accounts [] ({ factory } : Worker η) [] p := ⟨rfl, rfl⟩

/-- A message adds the hook that it starts to those that run. -/
theorem Accounts.receive (accounts : Accounts hooks w events p) (now : Nat) (m : HostMessage) :
    Accounts (hooks ++ implements (w.factory w.options) m) (w.receive now m).1
      (events ++ (w.receive now m).2) p := by
  obtain ⟨hhooks, hresponses⟩ := accounts
  cases m with
  | config options =>
    constructor
    · simpa [implements, Worker.receive] using hhooks
    · simpa [Worker.receive] using hresponses
  | unknown =>
    constructor
    · simpa [implements, Worker.receive] using hhooks
    · simpa [Worker.receive] using hresponses
  | prompt p' =>
    constructor
    · cases hhook : w.factory w.options p' with
      | none => simpa [implements, Worker.receive, hhook] using hhooks
      | some hook =>
        simp [implements, Worker.receive, hhook, List.count_append, List.count_singleton, hhooks]
        omega
    · simpa [Worker.receive] using hresponses

/-- A hook that completes is one of those that run. -/
theorem countP_eraseIdx {place : Nat} {task : Task η} (h : w.running[place]? = some task)
    (p : Prompt) : w.running.countP (·.prompt = p) =
      (w.running.eraseIdx place).countP (·.prompt = p) + [task.prompt].count p := by
  obtain ⟨hplace, htask⟩ := List.getElem?_eq_some_iff.mp h
  have hperm := List.getElem_cons_eraseIdx_perm hplace
  rw [← hperm.countP_eq, htask, List.countP_cons, List.count_singleton]
  congr 1

/-- A hook that completes is moved to those that succeeded, with a response that is ready, or to
those that failed. -/
theorem Accounts.complete (accounts : Accounts hooks w events p) (place : Nat)
    (succeeds : Bool) :
    Accounts hooks (w.complete place succeeds).1 (events ++ (w.complete place succeeds).2) p := by
  obtain ⟨hhooks, hresponses⟩ := accounts
  unfold Worker.complete
  cases htask : w.running[place]? with
  | none =>
    dsimp only
    rw [List.append_nil]
    exact ⟨hhooks, hresponses⟩
  | some task =>
    -- what leaves those that run is the one hook that is counted elsewhere now
    have hrunning := countP_eraseIdx htask p
    cases succeeds with
    | true =>
      constructor
      · simp [List.count_append, List.count_singleton] at hrunning ⊢
        omega
      · simp [List.count_append, List.count_singleton] at hresponses ⊢
        omega
    | false =>
      constructor
      · simp [List.count_append, List.count_singleton] at hrunning ⊢
        omega
      · simpa [List.count_append] using hresponses

/-- A response that leaves is posted or lost. -/
theorem Accounts.post (accounts : Accounts hooks w events p) (taken : Bool) :
    Accounts hooks (w.post taken).1 (events ++ (w.post taken).2) p := by
  obtain ⟨hhooks, hresponses⟩ := accounts
  unfold Worker.post
  cases hready : w.ready with
  | nil =>
    dsimp only
    rw [List.append_nil]
    exact ⟨hhooks, hresponses⟩
  | cons p' rest =>
    rw [hready, List.count_cons] at hresponses
    cases taken with
    | true =>
      constructor
      · simpa [List.count_append] using hhooks
      · simp [List.count_append, List.count_singleton] at hresponses ⊢
        omega
    | false =>
      constructor
      · simpa [List.count_append] using hhooks
      · simp [List.count_append, List.count_singleton] at hresponses ⊢
        omega

/-- A move that cannot happen starts nothing. -/
theorem launches_of_not_admits {m : Move} (h : ¬ w.admits m = true) : w.launches m = [] := by
  cases m with
  | receive now m => exact if_neg h
  | start | complete | post | stop => rfl

/-- **Every move keeps the balances.** -/
theorem Accounts.step (accounts : Accounts hooks w events p) (m : Move) :
    Accounts (hooks ++ w.launches m) (w.step m).1 (events ++ (w.step m).2) p := by
  unfold Worker.step
  by_cases hadmits : w.admits m = true
  · rw [if_pos hadmits]
    cases m with
    | start =>
      constructor
      · simpa [launches, List.count_append] using accounts.hooks
      · simpa [List.count_append] using accounts.responses
    | receive now m =>
      have hlaunches : w.launches (.receive now m) = implements (w.factory w.options) m :=
        if_pos hadmits
      rw [hlaunches]
      exact accounts.receive now m
    | complete place succeeds =>
      show Accounts (hooks ++ []) _ _ p
      rw [List.append_nil]
      exact accounts.complete place succeeds
    | post taken =>
      show Accounts (hooks ++ []) _ _ p
      rw [List.append_nil]
      exact accounts.post taken
    | stop =>
      show Accounts (hooks ++ []) _ (events ++ []) p
      rw [List.append_nil, List.append_nil]
      exact ⟨accounts.hooks, accounts.responses⟩
  · rw [if_neg hadmits, launches_of_not_admits hadmits, List.append_nil, List.append_nil]
    exact accounts

end Worker

end Invigilation
