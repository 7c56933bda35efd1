/-!
# Tables of characters

A property of characters is a table of ranges of code points, both ends included.

- `inRanges`: whether a character is in a table.
- `valueIn?`: the value that a table gives to a character.
-/

namespace Invigilation.Text

/-- Whether a code point is in one of the ranges. -/
def inRanges (ranges : List (Nat × Nat)) (c : Char) : Bool :=
  ranges.any fun (low, high) => low ≤ c.toNat && c.toNat ≤ high

/-- The value of the first range that a code point is in. -/
def valueIn? {α : Type} (ranges : List (Nat × Nat × α)) (c : Char) : Option α :=
  (ranges.find? fun (low, high, _) => low ≤ c.toNat && c.toNat ≤ high).map fun (_, _, value) =>
    value

end Invigilation.Text
