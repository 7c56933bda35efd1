import Invigilation.Message.Basic

/-!
# Backends of a worker

A backend implements prompts. The handler of a worker says which prompts it implements and how; a
factory builds handlers from the options of a configuration.

- `Handler`, `Factory`: polymorphic in what the work of a hook is.
- `Hook`: work that is known by how long it takes and whether it succeeds.
-/

namespace Invigilation

/-- The work that each prompt starts; none where the prompt is not implemented. -/
abbrev Handler (η : Type) := Prompt → Option η

/-- What builds the handler for the options of a configuration. -/
abbrev Factory (η : Type) := (options : Json) → Handler η

/-- Work of a known duration. -/
structure Hook where
  delay : Nat := 0
  succeeds : Bool := true
  deriving DecidableEq, Repr

end Invigilation
