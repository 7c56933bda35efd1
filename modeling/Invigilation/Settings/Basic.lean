import Invigilation.Client
import Invigilation.Page.Gate

/-!
# Settings of a coordinator

The settings say where the attempt service is, which worker arms and stops the proctoring session,
how long to wait for it, and what the page says when it is left. Times are in milliseconds.
-/

namespace Invigilation

/-- How long to wait for a worker's echo when nothing else is configured. -/
def defaultPingTimeout : Nat := 10000

/-- The settings of a coordinator. -/
structure Settings where
  baseUrl : Option String := none
  httpTimeout : Nat := defaultTimeout
  csrfToken : Option String := none
  entryPoint : Option String := none
  responseTimeout : Option Nat := none
  pingTimeout : Nat := defaultPingTimeout
  workerOptions : Option Json := none
  unloadWarning : String := defaultWarning
  deriving DecidableEq

/-- The part of the settings that the client is built from. -/
def Settings.client (s : Settings) : ClientSettings :=
  ⟨s.baseUrl, s.httpTimeout, s.csrfToken⟩

end Invigilation
