import Invigilation.Message.Wire
import Invigilation.Text.Blank

/-!
# Messages as lines

Between processes each message is one line of text, ended by a line feed. Reading skips lines that
are no message, but it stops for good at a line that is not UTF-8.

- `Lines.write`: the bytes of messages.
- `Lines.Inlet`: reads messages from bytes that arrive in pieces.
-/

namespace Invigilation.Lines

open Text (Bytes)

/-- The byte that ends a line. -/
def newline : UInt8 := 0x0A

/-- The line of a text. -/
def line (text : String) : Bytes :=
  Text.toBytes text ++ [newline]

/-- The lines of messages. -/
def write {α : Type} (wire : α → String) (messages : List α) : Bytes :=
  messages.flatMap fun m => line (wire m)

/-- The complete lines of a byte sequence, without their ends, and what follows them. -/
def split : Bytes → List Bytes × Bytes
  | [] => ([], [])
  | b :: rest =>
    let (lines, tail) := split rest
    if b = newline then ([] :: lines, tail)
    else
      match lines with
      | [] => ([], b :: tail)
      | l :: more => ((b :: l) :: more, tail)

variable {α : Type}

/-- The message of a line, without the blanks at its ends. -/
def message? (decode : Bytes → Option α) (text : String) : Option α :=
  decode (Text.toBytes (Text.trim text))

/-- The messages of lines up to the first that is not UTF-8, and whether there is one. -/
def read (decode : Bytes → Option α) : List Bytes → List α × Bool
  | [] => ([], false)
  | l :: rest =>
    match Text.ofBytes? l with
    | none => ([], true)
    | some text =>
      let (messages, broken) := read decode rest
      ((message? decode text).toList ++ messages, broken)

/-- Where reading stands. -/
structure Inlet where
  /-- The bytes since the last line end. -/
  partialLine : Bytes := []
  /-- Nothing more will be read. -/
  stopped : Bool := false
  deriving DecidableEq, Repr

namespace Inlet

/-- Takes bytes that arrived, and gives the messages they complete. -/
def feed (decode : Bytes → Option α) (i : Inlet) (bytes : Bytes) : Inlet × List α :=
  if i.stopped then (i, [])
  else
    let (lines, tail) := split (i.partialLine ++ bytes)
    let (messages, broken) := read decode lines
    (⟨tail, broken⟩, messages)

/-- Takes the end of the input. A last line without its end counts, unless it is empty. -/
def finish (decode : Bytes → Option α) (i : Inlet) : Inlet × List α :=
  if i.stopped then (i, [])
  else
    let lines := if i.partialLine.isEmpty then [] else [i.partialLine]
    (⟨[], true⟩, (read decode lines).1)

end Inlet

/-- The messages of a whole input. -/
def messages (decode : Bytes → Option α) (bytes : Bytes) : List α :=
  let (inlet, first) := Inlet.feed decode {} bytes
  first ++ (inlet.finish decode).2

end Invigilation.Lines
