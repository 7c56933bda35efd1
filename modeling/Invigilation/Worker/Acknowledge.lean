import Invigilation.Json.Basic
import Invigilation.Worker.Handler

/-!
# The acknowledging backend

A backend that answers every prompt, after the delay in the options of its configuration: the member
`ack_delay_ms`, a natural number of milliseconds below 2^64. Options without it mean no delay.
-/

namespace Invigilation.Acknowledge

/-- The member of the options with the delay. -/
def delayKey : String := "ack_delay_ms"

/-- The delay that options ask for. -/
def delay (options : Json) : Nat :=
  ((options.get? delayKey).bind Json.toUnsigned?).getD 0

/-- Each prompt succeeds after the delay. -/
def factory : Factory Hook := fun options _ =>
  some { delay := delay options }

end Invigilation.Acknowledge
