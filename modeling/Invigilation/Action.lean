import Invigilation.Message.Basic
import Invigilation.Json.Reader.Value
import Invigilation.Text.Blank

/-!
# Actions on an exam attempt

A learner starts or submits an attempt. Each action has a name, a prompt for the proctoring worker,
and a body for the status update.
-/

namespace Invigilation

open Text (Bytes)

/-- What a learner does to an attempt. -/
inductive Action where
  | start
  | submit
  deriving DecidableEq, Repr

namespace Action

/-- The name of an action. -/
def name : Action → String
  | start => "start"
  | submit => "submit"

/-- The prompt that hands an action to the worker. -/
def prompt : Action → Prompt
  | start => .start
  | submit => .finish

/-- The action with a name. -/
def ofName? (name : String) : Option Action :=
  [start, submit].find? (·.name = name)

/-- Reads an action from a text, without regard to blanks at its ends and to the case of ASCII
letters; a text that names none is given back cleaned. -/
def parse (text : String) : Except String Action :=
  let cleaned := Text.lowerAscii (Text.trim text)
  match ofName? cleaned with
  | some a => .ok a
  | none => .error cleaned

/-- The JSON value of an action. -/
def toJson (a : Action) : Json :=
  .str a.name

/-- The body of the status update that reports an action. -/
def updateBody (a : Action) : Json :=
  .obj [("action", a.toJson)]

/-- The action that a JSON value stands for: its name, or an object with the name as its only key
and null as its value. -/
def ofJson? : Json → Option Action
  | .str name => ofName? name
  | .obj [(name, .null)] => ofName? name
  | _ => none

/-- The action in a JSON text. -/
def decode? (text : Bytes) : Option Action :=
  match Json.parse text with
  | .ok v => ofJson? v
  | .error _ => none

end Action

end Invigilation
