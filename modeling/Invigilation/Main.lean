import Invigilation.Cli.Run

/-!
# The program

The outermost layer: it reads the command line and the environment, runs the command and prints
what comes of it. It has no network and launches no programs, so that requests stay unanswered and
workers cannot be spawned; as a worker it serves its standard input and output as the lines come.
-/

namespace Invigilation.Cli

/-- What is shown to a user who asks for help. -/
def usage : String :=
  "Usage: proctoring <COMMAND>\n\n" ++
  "Commands:\n" ++
  "  action  Start or submit an exam attempt\n" ++
  "  ping    Ping the configured proctoring worker\n" ++
  "  status  Report the active attempt and whether leaving the page would warn\n" ++
  "  worker  Run an acknowledging proctoring worker on standard input and output\n"

/-- The settings that the environment of the process holds. -/
def readEnvironment : IO Environment := do
  let found ← Variable.all.mapM fun v => do
    let value ← IO.getEnv v.name
    return value.map fun text => (v.name, Text.toBytes text)
  return found.filterMap id

/-- Prints the lines that were written. -/
def printLines (out : IO.FS.Stream) (events : List LineWorker.Event) : IO Unit := do
  let bytes := LineWorker.outputOf events
  unless bytes.isEmpty do
    out.putStr (Text.ofBytesLossy bytes)
    out.flush

/-- The move that a finished read means. -/
def inputMove : Except IO.Error String → LineWorker.Move
  | .ok "" | .error _ => .endInput
  | .ok line => .feed (Text.toBytes line)

/-- Serves standard input and output, looking at clock and input every millisecond. -/
partial def serveStreams (input out : IO.FS.Stream) (begun : Nat) (w : LineWorker Hook) (last : Nat)
    (read : Task (Except IO.Error String)) : IO Unit := do
  let now := (← IO.monoMsNow) - begun
  let (w, events) := w.advance last now
  printLines out events
  if ← IO.hasFinished read then
    let (w, events) := w.stepSettled now (inputMove read.get)
    printLines out events
    unless w.isFinished do
      serveStreams input out begun w now (← IO.asTask input.getLine Task.Priority.dedicated)
  else
    IO.sleep 1
    serveStreams input out begun w now read

/-- Runs the acknowledging worker. -/
def serve : IO Unit := do
  let input ← IO.getStdin
  let begun ← IO.monoMsNow
  serveStreams input (← IO.getStdout) begun (.fresh Acknowledge.factory) 0
    (← IO.asTask input.getLine Task.Priority.dedicated)

/-- Runs a command that is no worker. -/
def execute (command : Command) : IO UInt32 := do
  let world : World := {
    environment := ← readEnvironment
    launch := fun _ => .error .unsupported
    patience := 0 }
  match (run world [] 0 command).result with
  | .ok out =>
    IO.print out
    return 0
  | .error e =>
    IO.eprintln s!"Error: {e.message}"
    return 1

/-- The program. Its exit code is 0 on success, 1 when a command failed, and 2 when the words name
no command. -/
def program (words : List String) : IO UInt32 := do
  match Command.parse words with
  | .ok .worker =>
    serve
    return 0
  | .ok command => execute command
  | .error .help =>
    IO.print usage
    return 0
  | .error .helpForWantOfCommand =>
    IO.eprint usage
    return 2
  | .error refusal =>
    IO.eprintln refusal.message
    return 2

end Invigilation.Cli

/-- The words behind the program's name are its command. -/
def main (words : List String) : IO UInt32 :=
  Invigilation.Cli.program words
