import Invigilation.Session.Error
import Invigilation.Text.Blank
import Invigilation.Worker.Handler

/-!
# Registered workers

A registry maps entry points to factories. Names are registered as they are, and the latest
registration of a name counts. A name that is asked for is trimmed first, so that a worker whose
registered name has blanks at its ends cannot be found.

- `Registry.register`, `Registry.find?`: the two operations.
- `Registry.spawn`: the factory for an entry point, or the error.
-/

namespace Invigilation

/-- The registered entry points, the earliest first. -/
structure Registry (η : Type) where
  entries : List (String × Factory η) := []

namespace Registry

variable {η : Type}

/-- Registers a factory. -/
def register (r : Registry η) (name : String) (factory : Factory η) : Registry η :=
  ⟨r.entries ++ [(name, factory)]⟩

/-- The factory of the latest registration of a name. -/
def find? (r : Registry η) (name : String) : Option (Factory η) :=
  r.entries.reverse.lookup name

/-- The factory for an entry point. -/
def spawn (r : Registry η) (entryPoint : String) : Except SessionError (Factory η) :=
  match r.find? (Text.trim entryPoint) with
  | some factory => .ok factory
  | none => .error (.unknownEntryPoint entryPoint)

end Registry

end Invigilation
