import Invigilation.Message.Basic
import Invigilation.Json.Reader.Envelope

/-!
# Messages on the wire

A message is an object with a member `type`; a configuration also has the member `options`. Reading
is more generous than writing. The members may stand in any order and others may stand among them,
but `type` must occur once and be a string, and in a configuration `options` may occur once and is
null when it is missing. A message may also be a list: its type name, and for a configuration the
options. A type name that is not known gives the message that stands for all of them. Envelopes in
the options are opened, and have to be well formed; elsewhere in a message they are plain objects.
-/

namespace Invigilation

open Text (Bytes)

/-- The values of the members under a key, in order. -/
def Json.valuesOf (key : String) (members : List (String × Json)) : List Json :=
  (members.filter (·.1 = key)).map (·.2)

namespace HostMessage

/-- The message as a JSON value. -/
def toJson : HostMessage → Json
  | .config options => .obj [("type", .str "config"), ("options", options)]
  | m => .obj [("type", .str (messageTypeName m.messageType?))]

/-- The text of the message. -/
def wire (m : HostMessage) : String :=
  m.toJson.render

/-- The configuration with the options that a JSON value stands for. -/
def configured? (options : Json) : Option HostMessage :=
  options.opened?.map (.config ·.settled)

/-- The message with a type name. A configuration has no options then. -/
def named (name : String) : HostMessage :=
  match MessageType.ofName? name with
  | some .config => .config .null
  | some t =>
    match Prompt.ofMessageType? t with
    | some p => .prompt p
    | none => .unknown
  | none => .unknown

/-- The message that a JSON value stands for. -/
def ofJson? : Json → Option HostMessage
  | .obj members =>
    match Json.valuesOf "type" members with
    | [.str name] =>
      if name = MessageType.config.name then
        match Json.valuesOf "options" members with
        | [] => some (named name)
        | [options] => configured? options
        | _ => none
      else some (named name)
    | _ => none
  | .arr [.str name] => some (named name)
  | .arr [.str name, options] =>
    if name = MessageType.config.name then configured? options else none
  | _ => none

/-- The message in a text. -/
def decode? (text : Bytes) : Option HostMessage :=
  match Json.parse text with
  | .ok v => ofJson? v
  | .error _ => none

end HostMessage

namespace WorkerMessage

/-- The message as a JSON value. -/
def toJson (m : WorkerMessage) : Json :=
  .obj [("type", .str (messageTypeName m.messageType?))]

/-- The text of the message. -/
def wire (m : WorkerMessage) : String :=
  m.toJson.render

/-- The message with a type name. -/
def named (name : String) : WorkerMessage :=
  match Prompt.all.find? (·.responseType.name = name) with
  | some p => .response p
  | none => .unknown

/-- The message that a JSON value stands for. -/
def ofJson? : Json → Option WorkerMessage
  | .obj members =>
    match Json.valuesOf "type" members with
    | [.str name] => some (named name)
    | _ => none
  | .arr [.str name] => some (named name)
  | _ => none

/-- The message in a text. -/
def decode? (text : Bytes) : Option WorkerMessage :=
  match Json.parse text with
  | .ok v => ofJson? v
  | .error _ => none

end WorkerMessage

end Invigilation
