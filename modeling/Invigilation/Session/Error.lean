import Invigilation.Message.Basic

/-!
# Failures of a worker session

Each constructor is one cause; `SessionError.message` is the wording.
-/

namespace Invigilation

/-- Why a session with a worker failed. -/
inductive SessionError where
  /-- No worker has the entry point, which is named as it was asked for. -/
  | unknownEntryPoint (name : String)
  /-- The worker could not be started. -/
  | spawnFailed (detail : String)
  /-- A message could not be delivered; it is named by its type. -/
  | sendFailed (type : Option MessageType)
  /-- The message type to be sent is no prompt. -/
  | invalidPrompt (type : MessageType)
  /-- The worker left while its response was awaited. -/
  | disconnected (awaiting : MessageType)
  /-- The response did not come in time. -/
  | timedOut (awaiting : MessageType)
  deriving DecidableEq, Repr

/-- The wording of a session error. -/
def SessionError.message : SessionError → String
  | .unknownEntryPoint name => s!"worker_entry_point_unknown:{name}"
  | .spawnFailed detail => s!"worker_spawn_failed:{detail}"
  | .sendFailed type => s!"worker_send_failed:{messageTypeName type}"
  | .invalidPrompt type => s!"worker_invalid_prompt:{type.name}"
  | .disconnected awaiting => s!"worker_disconnected_awaiting:{awaiting.name}"
  | .timedOut awaiting => s!"worker_timed_out_awaiting:{awaiting.name}"

end Invigilation
