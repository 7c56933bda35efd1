import Invigilation.Message.Lines
import Invigilation.Session.Spawner

/-!
# Workers in processes of their own

The entry point of such a worker is a program. Its standard input and output carry the messages as
lines. What the machine does when a program is launched is a parameter: it refuses, or runs a child
whose behaviour is given.

- `Command`, `Launcher`: what is launched, and what comes of it.
- `Child`: the behaviour of a child, and the script that a session sees of it.
- `processSpawner`: the spawner that launches entry points.
-/

namespace Invigilation

open Text (Bytes)

/-- Why a program could not be launched. -/
inductive LaunchFault where
  | notFound
  | permissionDenied
  | notADirectory
  | nameTooLong
  | argumentTooLong
  /-- Launching programs is not possible at all. -/
  | unsupported
  /-- A part of the command holds a NUL. -/
  | nulByte
  deriving DecidableEq, Repr

/-- The wording of a launch fault. -/
def LaunchFault.message : LaunchFault → String
  | .notFound => "No such file or directory (os error 2)"
  | .permissionDenied => "Permission denied (os error 13)"
  | .notADirectory => "Not a directory (os error 20)"
  | .nameTooLong => "File name too long (os error 36)"
  | .argumentTooLong => "Argument list too long (os error 7)"
  | .unsupported => "Function not implemented (os error 38)"
  | .nulByte => "nul byte found in provided data"

/-- A program with its arguments and its working directory. -/
structure Command where
  program : String
  args : List String := []
  directory : Option String := none
  deriving DecidableEq, Repr

/-- Whether every part of the command can be passed to the machine. -/
def Command.isWellFormed (c : Command) : Bool :=
  (c.program :: c.args ++ c.directory.toList).all fun part => !part.toList.contains '\x00'

/-- What a child does. -/
structure Child where
  /-- How many lines it reads first; none to read until its input ends. -/
  reads : Option Nat := none
  /-- What it writes then. -/
  output : Bytes := []
  /-- Whether it exits afterwards, or stays. -/
  exits : Bool := false
  deriving DecidableEq, Repr

namespace Child

/-- What the host reads of the output: the messages, and whether reading has come to an end. -/
def heard (c : Child) : List WorkerMessage × Bool :=
  let (inlet, messages) := Lines.Inlet.feed WorkerMessage.decode? {} c.output
  if c.exits then (messages ++ (inlet.finish WorkerMessage.decode?).2, true)
  else (messages, inlet.stopped)

/-- The script of a child that is handed a number of lines. Its input does not end before the
session does, so that a child that waits for more stays silent. -/
def script (c : Child) (handed : Nat) : Script :=
  if c.reads.any (· ≤ handed) then
    let (messages, ended) := c.heard
    let replies := messages.map fun m => Script.Step.act (.reply m)
    { steps := replies ++ if ended then [.act .closeReplies] else [] }
  else {}

/-- A child as a session meets it. -/
def farEnd (c : Child) : FarEnd where
  capacity := Link.capacity
  play patience s :=
    let handed := match s.phase with
      | .live _ (.posting pending) => pending.length
      | _ => 0
    (c.script handed).play patience s

end Child

/-- What comes of launching a command. -/
abbrev Launcher := Command → Except LaunchFault Child

/-- The spawner of entry points that are programs, all launched with the same arguments and in the
same directory. -/
def processSpawner (launch : Launcher) (args : List String) (directory : Option String := none) :
    Spawner := fun entryPoint =>
  match Text.content? entryPoint with
  | none => .error (.unknownEntryPoint entryPoint)
  | some program =>
    let command : Command := { program, args, directory }
    match if command.isWellFormed then launch command else .error .nulByte with
    | .ok child => .ok child.farEnd
    | .error fault => .error (.spawnFailed s!"{program}: {fault.message}")

end Invigilation
