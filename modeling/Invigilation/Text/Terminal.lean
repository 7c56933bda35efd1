import Invigilation.Text.Utf8

/-!
# Text without terminal control sequences (ECMA-48)

What a message quotes may hold the sequences by which a terminal is told to change colours, to move
its cursor or to take a title. `plain` leaves them out, and every other control character too, save
line ends, tabs and form feeds. A small machine runs over the bytes of the text: between sequences
bytes are shown, inside a sequence they are not.

- `State`: where the machine stands between two bytes.
- `step`: the state after a byte, and whether the byte is shown.
- `plain`: the text that is left.

A sequence that breaks off swallows what follows it until something ends it, so `plain` of two texts
put together need not be the two plain texts put together.
-/

namespace Invigilation.Text.Terminal

/-- Where the machine stands between two bytes. -/
inductive State where
  /-- Between sequences. After a shown byte continuation bytes belong to a shown character. -/
  | ground (showing : Bool)
  /-- After the escape byte. -/
  | escape
  /-- In an escape sequence that goes on after its first byte. -/
  | escapeTail
  /-- In a control sequence, of which the final byte is missing. -/
  | controlSequence
  /-- At the start of a device control string. -/
  | deviceEntry
  /-- In the parameters of a device control string. -/
  | deviceParameters
  /-- Behind the parameters of a device control string. -/
  | deviceIntermediates
  /-- In a string that is for no reader. -/
  | string
  /-- In an operating system command. -/
  | systemCommand
  deriving DecidableEq, Repr

/-- Between sequences, with nothing shown last. -/
def State.rest : State := .ground false

/-- The byte that starts every sequence. -/
def escapeByte : UInt8 := 0x1B

/-- The bytes that call a sequence off. -/
def isCancel (b : UInt8) : Bool :=
  b == 0x18 || b == 0x1A

/-- The control characters that are shown: tab, line feed, form feed and carriage return. -/
def isShownControl (b : UInt8) : Bool :=
  b == 0x09 || b == 0x0A || b == 0x0C || b == 0x0D

/-- A control character. Inside strings it is passed over, and a bell ends a system command;
elsewhere one that is shown also ends the sequence it stands in. -/
def stepControl (s : State) (b : UInt8) : State × Bool :=
  match s with
  | .deviceEntry | .deviceParameters | .deviceIntermediates | .string => (s, false)
  | .systemCommand => (if b = 0x07 then .rest else s, false)
  | .ground _ => if isShownControl b then (.ground true, true) else (.rest, false)
  | .escape | .escapeTail | .controlSequence =>
    if isShownControl b then (.ground true, true) else (s, false)

/-- The state after the first byte behind the escape byte. -/
def introduced (b : UInt8) : State :=
  if b < 0x30 then .escapeTail
  else if b = 0x5B then .controlSequence
  else if b = 0x5D then .systemCommand
  else if b = 0x50 then .deviceEntry
  else if b = 0x58 ∨ b = 0x5E ∨ b = 0x5F then .string
  else .rest

/-- A graphic ASCII character or a space. -/
def stepGraphic (s : State) (b : UInt8) : State × Bool :=
  match s with
  | .ground _ => (.ground true, true)
  | .escape => (introduced b, false)
  | .escapeTail => (if b < 0x30 then s else .rest, false)
  | .controlSequence => (if b < 0x40 then s else .rest, false)
  | .deviceEntry =>
    (if b < 0x30 then .deviceIntermediates else if b < 0x40 then .deviceParameters else .string,
      false)
  | .deviceParameters =>
    (if b < 0x30 then .deviceIntermediates else if b < 0x3C then s else .string, false)
  | .deviceIntermediates => (if b < 0x30 then s else .string, false)
  | .string | .systemCommand => (s, false)

/-- A byte of a character outside ASCII. Byte 9C ends a string even inside a character. -/
def stepWide (s : State) (b : UInt8) : State × Bool :=
  match s with
  | .ground showing =>
    if 0xC2 ≤ b ∧ b ≤ 0xF4 then (.ground true, true)
    else if showing ∧ b < 0xC0 then (s, true)
    else (.rest, false)
  | .string => (if b = 0x9C then .rest else s, false)
  | _ => (s, false)

/-- One byte: the state after it, and whether it is shown. -/
def step (s : State) (b : UInt8) : State × Bool :=
  if b = escapeByte then (.escape, false)
  else if isCancel b then (.rest, false)
  else if b < 0x20 then stepControl s b
  else if b < 0x7F then stepGraphic s b
  else if b = 0x7F then
    match s with
    | .ground _ => (.rest, false)
    | _ => (s, false)
  else stepWide s b

/-- The bytes that are shown, from a state on. -/
def shown (s : State) : Bytes → Bytes
  | [] => []
  | b :: bs =>
    let (after, visible) := step s b
    if visible then b :: shown after bs else shown after bs

/-- A text without control sequences. -/
def plain (text : String) : String :=
  ofBytesLossy (shown .rest (toBytes text))

end Invigilation.Text.Terminal
