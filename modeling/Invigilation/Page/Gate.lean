import Invigilation.Attempt.Basic

/-!
# The unload warning of the exam page

While a proctored attempt runs on a courseware page, leaving the page shows a warning. The gate
holds the page's single registration of it.

- `PageState`: the three facts that decide.
- `Gate`: the warning text and whether it is registered.
- `Gate.assess`, `Gate.evaluate`, `Gate.detach`, `Gate.beforeUnload`: its operations.
-/

namespace Invigilation

/-- The facts about a page that decide whether leaving it warns. -/
structure PageState where
  takingAsProctored : Bool
  secondsRemaining : Int
  inCourseware : Bool
  deriving DecidableEq, Repr

namespace PageState

/-- The part of a path that marks a courseware page. -/
def coursewareSegment : String := "/courseware/"

/-- Whether a list occurs in another as consecutive elements. -/
def occursIn (pattern : List Char) : List Char → Bool
  | [] => pattern.isEmpty
  | c :: cs => pattern.isPrefixOf (c :: cs) || occursIn pattern cs

/-- The state of a page of an attempt. -/
def ofAttempt (a : Attempt) (path : String) : PageState :=
  ⟨a.takingAsProctored, a.secondsRemaining, occursIn coursewareSegment.toList path.toList⟩

/-- Whether leaving the page warns. -/
def warrantsWarning (s : PageState) : Bool :=
  s.takingAsProctored && 0 < s.secondsRemaining && s.inCourseware

end PageState

/-- The warning that a page shows when none is configured. -/
def defaultWarning : String :=
  "Are you sure you want to leave this page? " ++
    "To pass your proctored exam you must also pass the online proctoring session review."

/-- The registration of the unload warning. -/
structure Gate where
  message : String
  registered : Option String := none
  deriving DecidableEq, Repr

namespace Gate

/-- Registers the warning, if it is not registered yet. -/
def attach (g : Gate) : Gate :=
  match g.registered with
  | none => { g with registered := some g.message }
  | some _ => g

/-- Removes the registration. -/
def detach (g : Gate) : Gate :=
  { g with registered := none }

/-- Makes the registration match a page, and answers whether leaving it warns. -/
def assess (g : Gate) (s : PageState) : Gate × Bool :=
  if s.warrantsWarning then (g.attach, true) else (g.detach, false)

/-- The gate once its registration matches a page. -/
def evaluate (g : Gate) (s : PageState) : Gate :=
  (g.assess s).1

/-- Whether the warning is registered. -/
def isAttached (g : Gate) : Bool :=
  g.registered.isSome

/-- What the page shows to a user who is about to leave. -/
def beforeUnload (g : Gate) : Option String :=
  g.registered

end Gate

end Invigilation
