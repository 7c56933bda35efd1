/-!
# The learner's current attempt

The status service reports the attempt in progress; when there is none, every field has its default.
-/

namespace Invigilation

/-- An attempt as the status service reports it. Its identifier has 64 bits, its seconds are a
signed number of 64 bits. -/
structure Attempt where
  id : Option Nat := none
  status : Option String := none
  inTimedExam : Bool := false
  takingAsProctored : Bool := false
  secondsRemaining : Int := 0
  displayName : Option String := none
  urlPath : Option String := none
  accessibilityText : Option String := none
  deriving DecidableEq, Repr, Inhabited

/-- Whether an attempt is in progress. -/
def Attempt.isActive (a : Attempt) : Bool :=
  a.id.isSome && a.inTimedExam

end Invigilation
