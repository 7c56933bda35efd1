import Invigilation.Session.Process

/-!
# Machines that launch programs

A machine is known by what stands in its file system. A path is followed part by part from the root
or from a directory, and the first part that cannot be entered is the fault. A command without a
slash is looked for in the directories of the search path.

- `Place`: where something stands, as the names on the way from the root.
- `Machine.resolve`: the place a path leads to.
- `Machine.launch`: what comes of launching a command.
-/

namespace Invigilation

/-- Where something stands: the names on the way from the root. -/
abbrev Place := List String

/-- The absolute path of a place. -/
def Place.path (p : Place) : String :=
  "/" ++ "/".intercalate p

/-- What stands in the file system of a machine. -/
structure Machine where
  directories : List Place
  /-- The files that are no programs. -/
  files : List Place := []
  programs : List (Place × Child) := []
  /-- The directories in which commands without a slash are looked for. -/
  searchPath : List Place := []
  /-- The working directory. -/
  current : Place := []

namespace Machine

/-- The greatest length of a name, in bytes. -/
def nameLimit : Nat := 255

/-- A length that paths stay below, in bytes. -/
def pathLimit : Nat := 4096

/-- A length that arguments stay below, in bytes. -/
def argumentLimit : Nat := 131072

/-- The length of a text in bytes. -/
def byteLength (s : String) : Nat :=
  (Text.toBytes s).length

/-- Whether a place is a directory. -/
def isDirectory (m : Machine) (p : Place) : Bool :=
  p.isEmpty || m.directories.contains p

/-- Whether anything stands at a place. -/
def holds (m : Machine) (p : Place) : Bool :=
  m.isDirectory p || m.files.contains p || (m.programs.lookup p).isSome

/-- One part of a path, followed from a place. -/
def enter (m : Machine) (p : Place) (part : String) : Except LaunchFault Place :=
  if !m.isDirectory p then .error .notADirectory
  else if part = "." then .ok p
  else if part = ".." then .ok p.dropLast
  else if nameLimit < byteLength part then .error .nameTooLong
  else if m.holds (p ++ [part]) then .ok (p ++ [part])
  else .error .notFound

/-- The names in a path. -/
def partsOf (path : String) : List String :=
  (path.splitOn "/").filter (· ≠ "")

/-- The place that a path leads to. A path that ends in a slash leads to a directory only. -/
def resolve (m : Machine) (start : Place) (path : String) : Except LaunchFault Place :=
  if path.isEmpty then .error .notFound
  else if pathLimit ≤ byteLength path then .error .nameTooLong
  else do
    let place ← (partsOf path).foldlM m.enter (if path.front = '/' then [] else start)
    if path.back = '/' ∧ !m.isDirectory place then .error .notADirectory
    else return place

/-- The directory that a path leads to. -/
def resolveDirectory (m : Machine) (start : Place) (path : String) : Except LaunchFault Place := do
  let place ← m.resolve start path
  if m.isDirectory place then return place else .error .notADirectory

/-- The program that a path leads to. -/
def programAt (m : Machine) (start : Place) (path : String) : Except LaunchFault Child := do
  match m.programs.lookup (← m.resolve start path) with
  | some child => return child
  | none => .error .permissionDenied

/-- The program that a name means: the first one found on the search path. Something else of that
name, if it is all that is found, is no program. -/
def programNamed (m : Machine) (name : String) : Except LaunchFault Child :=
  if nameLimit < byteLength name then .error .nameTooLong
  else
    let found := m.searchPath.map fun directory => m.programAt directory name
    match found.findSome? Except.toOption with
    | some child => .ok child
    | none =>
      let denied := found.any fun
        | .error .permissionDenied => true
        | _ => false
      .error (if denied then .permissionDenied else .notFound)

/-- What comes of launching a command: first its directory is entered, then its program is looked
for. -/
def launch (m : Machine) : Launcher := fun command => do
  let here ← match command.directory with
    | none => pure m.current
    | some path => m.resolveDirectory m.current path
  let child ←
    if command.program.contains '/' then m.programAt here command.program
    else m.programNamed command.program
  if (command.program :: command.args).any fun a => argumentLimit ≤ byteLength a then
    .error .argumentTooLong
  else return child

end Machine

end Invigilation
