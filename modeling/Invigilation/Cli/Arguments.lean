import Invigilation.Action
import Invigilation.Text.Terminal

/-!
# The command line

The first word names the command, the words after it are the command's options. An option takes a
value, either attached with an equals sign or as the next word. Words are read from left to right,
and the first fault that shows is reported. An option and the word that is its value are taken up
only when the next option starts, or at the end of the line.

- `Cli.Command`: what can be asked for.
- `Cli.Command.parse`: the command of a list of words.
- `Cli.Refusal`: why there is none.
-/

namespace Invigilation.Cli

/-- Why the words name no command to run. -/
inductive Refusal where
  /-- Help was asked for. -/
  | help
  /-- There were no words, which shows help too. -/
  | helpForWantOfCommand
  | unknownCommand (word : String)
  | unknownArgument (word : String)
  | missingValue (option : String)
  /-- A value was attached to an option that takes none. -/
  | surplusValue (option : String)
  | repeatedOption (option : String)
  | invalidValue (option value reason : String)
  | missingOption (option : String)
  deriving DecidableEq, Repr

/-- The options. -/
inductive Flag where
  | action
  | actionUrl
  | baseUrl
  | workerEntryPoint
  | workerArg
  | statusUrl
  | pagePath
  deriving DecidableEq, Repr

namespace Flag

/-- The name of an option, without its dashes. -/
def name : Flag → String
  | action => "action"
  | actionUrl => "action-url"
  | baseUrl => "base-url"
  | workerEntryPoint => "worker-entry-point"
  | workerArg => "worker-arg"
  | statusUrl => "status-url"
  | pagePath => "page-path"

/-- An option with the mark of its value, as errors show it. -/
def shown (f : Flag) : String :=
  let mark := String.ofList (f.name.toList.map fun c => if c = '-' then '_' else c.toUpper)
  s!"--{f.name} <{mark}>"

/-- Whether an option may be given several times. -/
def isRepeatable : Flag → Bool
  | workerArg => true
  | _ => false

/-- What is wrong with a value. -/
def fault? : Flag → String → Option String
  | action, value =>
    match Action.parse value with
    | .ok _ => none
    | .error cleaned => some s!"unknown action `{cleaned}`, expected start or submit"
  | _, _ => none

end Flag

/-- The first line of a text. -/
def firstLine (text : String) : String :=
  let cs := text.toList
  let first := cs.takeWhile (· ≠ '\n')
  if first.length < cs.length ∧ first.getLast? = some '\r' then String.ofList first.dropLast
  else String.ofList first

/-- A text that a terminal shows in a style of its own. -/
def styled (style text : String) : String :=
  s!"\x1b[{style}m{text}\x1b[0m"

/-- A refused value, as it is written for a terminal. -/
def invalidValueText (option value reason : String) : String :=
  styled "1;31" "error:" ++ " invalid value '" ++ styled "33" value ++ "' for '" ++
    styled "1" option ++ "': " ++ reason ++ "\n\nFor more information, try '" ++
    styled "1" "--help" ++ "'.\n"

/-- The wording of a refusal, as far as it is fixed. Of a refused value it is the first line of what
a terminal shows, less the control sequences; those of the value itself can reach beyond it. -/
def Refusal.message : Refusal → String
  | .help | .helpForWantOfCommand => "help"
  | .unknownCommand word => s!"error: unrecognized subcommand '{word}'"
  | .unknownArgument word => s!"error: unexpected argument '{word}' found"
  | .missingValue option => s!"error: a value is required for '{option}' but none was supplied"
  | .surplusValue option => s!"error: unexpected value for '{option}' found; no more were expected"
  | .repeatedOption option => s!"error: the argument '{option}' cannot be used multiple times"
  | .invalidValue option value reason =>
    firstLine (Text.Terminal.plain (invalidValueText option value reason))
  | .missingOption option => s!"error: the following required argument was not provided: {option}"

/-- Options with their values, in the order in which they were taken up. -/
abbrev Given := List (Flag × String)

/-- The values of an option. -/
def Given.values (given : Given) (f : Flag) : List String :=
  (given.filter (·.1 = f)).map (·.2)

/-- The value of an option that is not repeated. -/
def Given.value? (given : Given) (f : Flag) : Option String :=
  (given.values f).head?

/-- Takes an option up. A repetition is a fault before its value is looked at. -/
def Given.put (given : Given) (f : Flag) (value : String) : Except Refusal Given :=
  if !f.isRepeatable ∧ given.any (·.1 = f) then .error (.repeatedOption f.shown)
  else
    match f.fault? value with
    | some reason => .error (.invalidValue f.shown value reason)
    | none => .ok (given ++ [(f, value)])

/-- Where reading stands: the options taken up, and the last one while it is not. -/
structure Reading where
  given : Given := []
  /-- An option that is not taken up yet, and its value if that was read. -/
  pending : Option (Flag × Option String) := none

/-- Takes the pending option up. -/
def Reading.settle (r : Reading) : Except Refusal Given :=
  match r.pending with
  | none => .ok r.given
  | some (f, none) => .error (.missingValue f.shown)
  | some (f, some value) => r.given.put f value

/-- A word that starts with two dashes: the name behind them, and the value behind the first equals
sign. -/
def splitOption (body : List Char) : String × Option String :=
  let name := String.ofList (body.takeWhile (· ≠ '='))
  match body.dropWhile (· ≠ '=') with
  | [] => (name, none)
  | _ :: value => (name, some (String.ofList value))

/-- The name of the option that asks for help. -/
def helpName : String := "help"

/-- Reads a word that starts with two dashes. -/
def Reading.option (flags : List Flag) (r : Reading) (word : String) (body : List Char) :
    Except Refusal Reading :=
  let (name, value) := splitOption body
  if name = helpName then
    match value with
    | some _ => .error (.surplusValue s!"--{helpName}")
    | none => do
      let _ ← r.settle
      throw .help
  else
    match flags.find? (·.name = name), value with
    | none, _ => .error (.unknownArgument word)
    | some f, none => do
      let given ← r.settle
      return { given, pending := some (f, none) }
    | some f, some value => do
      let given ← r.settle
      return { given := ← given.put f value }

/-- Reads the words after a command that has the options `flags`. After a lone double dash every
word is surplus. -/
def readOptions (flags : List Flag) (r : Reading) : List String → Except Refusal Given
  | [] => r.settle
  | word :: rest =>
    match word.toList with
    | ['-', '-'] =>
      match rest with
      | [] => r.settle
      | surplus :: _ => .error (.unknownArgument surplus)
    | '-' :: '-' :: body => do
      readOptions flags (← r.option flags word body) rest
    | '-' :: c :: _ =>
      if c = 'h' then do
        let _ ← r.settle
        throw .help
      else .error (.unknownArgument word)
    | _ =>
      match r.pending with
      | some (f, none) => readOptions flags { r with pending := some (f, some word) } rest
      | _ => .error (.unknownArgument word)

/-- The worker that a command line asks for. -/
structure WorkerChoice where
  /-- Takes the place of the configured entry point. -/
  entryPoint : Option String := none
  /-- The arguments of every worker that is launched. -/
  args : List String := []
  deriving DecidableEq, Repr

/-- What can be asked for. -/
inductive Command where
  /-- Start or submit an attempt. -/
  | action (a : Action) (url : String) (baseUrl : Option String) (worker : WorkerChoice)
  /-- Check that the worker answers. -/
  | ping (worker : WorkerChoice)
  /-- Report the current attempt. -/
  | status (url pagePath : String) (baseUrl : Option String)
  /-- Be an acknowledging worker on standard input and output. -/
  | worker
  deriving DecidableEq, Repr

/-- The names of the commands. -/
inductive Word where
  | action
  | ping
  | status
  | worker
  deriving DecidableEq, Repr

/-- The name of a command. -/
def Word.name : Word → String
  | action => "action"
  | ping => "ping"
  | status => "status"
  | worker => "worker"

/-- The command with a name. -/
def Word.ofName? (name : String) : Option Word :=
  [action, ping, status, worker].find? (·.name = name)

/-- The options of a command. -/
def Word.flags : Word → List Flag
  | action => [.action, .actionUrl, .baseUrl, .workerEntryPoint, .workerArg]
  | ping => [.workerEntryPoint, .workerArg]
  | status => [.statusUrl, .pagePath, .baseUrl]
  | worker => []

/-- The path of the status service. -/
def defaultStatusUrl : String := "/api/edx_proctoring/v1/proctored_exam/attempt"

/-- The page that the learner is taken to be on. -/
def defaultPagePath : String := "/"

/-- The worker that options ask for. -/
def Given.worker (given : Given) : WorkerChoice :=
  ⟨given.value? .workerEntryPoint, given.values .workerArg⟩

/-- The value of an option that must be given. -/
def Given.require (given : Given) (f : Flag) : Except Refusal String :=
  match given.value? f with
  | some value => .ok value
  | none => .error (.missingOption f.shown)

/-- The command that a name and options make up. -/
def Command.ofGiven (given : Given) : Word → Except Refusal Command
  | .action => do
    let action ← given.require .action
    let url ← given.require .actionUrl
    match Action.parse action with
    | .ok a => return .action a url (given.value? .baseUrl) given.worker
    | .error reason => throw (.invalidValue Flag.action.shown action reason)
  | .ping => .ok (.ping given.worker)
  | .status =>
    .ok (.status ((given.value? .statusUrl).getD defaultStatusUrl)
      ((given.value? .pagePath).getD defaultPagePath) (given.value? .baseUrl))
  | .worker => .ok .worker

/-- Asks for help on a command, which must be one. -/
def helpOn : List String → Refusal
  | [] => .help
  | word :: rest =>
    if word = helpName ∨ (Word.ofName? word).isSome then
      match rest with
      | [] => .help
      | surplus :: _ => .unknownCommand surplus
    else .unknownCommand word

/-- The command of the words behind the program's name. -/
def Command.parse : List String → Except Refusal Command
  | [] => .error .helpForWantOfCommand
  | word :: rest =>
    if word = helpName then .error (helpOn rest)
    else
      match Word.ofName? word with
      | some command => do
        let given ← readOptions command.flags {} rest
        Command.ofGiven given command
      | none =>
        match word.toList with
        | ['-', '-'] =>
          match rest with
          | [] => .error .helpForWantOfCommand
          | next :: _ =>
            if next = helpName ∨ (Word.ofName? next).isSome then .error (.unknownArgument next)
            else .error (.unknownCommand next)
        | '-' :: '-' :: body =>
          match splitOption body with
          | (name, value) =>
            if name ≠ helpName then .error (.unknownArgument word)
            else if value.isSome then .error (.surplusValue s!"--{helpName}")
            else .error .help
        | '-' :: c :: _ => if c = 'h' then .error .help else .error (.unknownArgument word)
        | _ => .error (.unknownCommand word)

end Invigilation.Cli
