import Invigilation.Json.Basic

/-!
# Messages between the exam page and a proctoring worker

The host, that is the exam page, sends a worker its configuration and prompts; the worker answers a
prompt with the response paired with it. Both sides must take messages of types they do not know.

- `MessageType`: the seven types that have a name.
- `Prompt`: the three requests a worker serves, each with its response type.
- `HostMessage`, `WorkerMessage`: what travels in the two directions.
- `Exchange`: the types of a prompt and of the response it waits for.
-/

namespace Invigilation

/-- The message types that have a name. -/
inductive MessageType where
  | config
  | startExamAttempt
  | endExamAttempt
  | ping
  | examAttemptStarted
  | examAttemptEnded
  | echo
  deriving DecidableEq, Repr

namespace MessageType

/-- Every type. -/
def all : List MessageType :=
  [config, startExamAttempt, endExamAttempt, ping, examAttemptStarted, examAttemptEnded, echo]

/-- The name of a type in messages and errors. -/
def name : MessageType → String
  | config => "config"
  | startExamAttempt => "startExamAttempt"
  | endExamAttempt => "endExamAttempt"
  | ping => "ping"
  | examAttemptStarted => "examAttemptStarted"
  | examAttemptEnded => "examAttemptEnded"
  | echo => "echo"

/-- The type with a name. -/
def ofName? (name : String) : Option MessageType :=
  all.find? (·.name = name)

end MessageType

/-- The requests a worker serves. -/
inductive Prompt where
  | start
  | finish
  | ping
  deriving DecidableEq, Repr

namespace Prompt

/-- Every prompt. -/
def all : List Prompt := [start, finish, ping]

/-- The message type of a prompt. -/
def messageType : Prompt → MessageType
  | start => .startExamAttempt
  | finish => .endExamAttempt
  | ping => .ping

/-- The message type of the response paired with a prompt. -/
def responseType : Prompt → MessageType
  | start => .examAttemptStarted
  | finish => .examAttemptEnded
  | ping => .echo

/-- The prompt of a message type; the other types are no prompts. -/
def ofMessageType? (t : MessageType) : Option Prompt :=
  all.find? (·.messageType = t)

end Prompt

/-- A message from the host to a worker. -/
inductive HostMessage where
  | config (options : Json)
  | prompt (p : Prompt)
  | unknown
  deriving DecidableEq

/-- The type of a host message, if it has a name. -/
def HostMessage.messageType? : HostMessage → Option MessageType
  | .config _ => some .config
  | .prompt p => some p.messageType
  | .unknown => none

/-- A message from a worker to the host. -/
inductive WorkerMessage where
  | response (p : Prompt)
  | unknown
  deriving DecidableEq, Repr

/-- The type of a worker message, if it has a name. -/
def WorkerMessage.messageType? : WorkerMessage → Option MessageType
  | .response p => some p.responseType
  | .unknown => none

/-- The types of a prompt and of the response that ends the wait for it. -/
structure Exchange where
  prompt : MessageType
  response : MessageType
  deriving DecidableEq, Repr

/-- The exchange of a prompt and the response paired with it. -/
def Prompt.exchange (p : Prompt) : Exchange :=
  ⟨p.messageType, p.responseType⟩

/-- The name of a type in an error; a message of an unknown type is called so. -/
def messageTypeName : Option MessageType → String
  | some t => t.name
  | none => "unknown"

end Invigilation
