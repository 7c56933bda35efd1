import Invigilation.Json.Printer
import Invigilation.Json.Reader.String
import Invigilation.Proofs.Text.Utf8

/-!
# Strings of JSON there and back

A printed string is read back as it was: an escape stands for the character that it was made for,
every other character is taken by its bytes, and no byte in between looks like the end.

- `readEscape_escapeChar`: each escape that is written is understood.
- `readContents_escaped`, `readString_escaped`: **reading undoes printing**, whatever follows.
-/

namespace Invigilation.Json

open Text (Bytes)
open Text.Utf8 (encode)

theorem encode_append (cs ds : List Char) : encode (cs ++ ds) = encode cs ++ encode ds :=
  List.flatMap_append

theorem encode_cons (c : Char) (cs : List Char) :
    encode (c :: cs) = String.utf8EncodeChar c ++ encode cs :=
  List.flatMap_cons

/-- Characters below U+0080 are written byte by byte. -/
theorem encode_cons_of_lt {c : Char} (h : c.toNat < 0x80) (cs : List Char) :
    encode (c :: cs) = UInt8.ofNat c.toNat :: encode cs := by
  rw [encode_cons, Text.Utf8.encodeChar_of_lt h]
  rfl

/-! ## Escapes -/

/-- Whether a character is escaped in a string. -/
def IsEscaped (c : Char) : Prop :=
  c = '"' ∨ c = '\\' ∨ c.toNat < 0x20

instance (c : Char) : Decidable (IsEscaped c) :=
  inferInstanceAs (Decidable (_ ∨ _))

theorem escapeChar_of_not_isEscaped {c : Char} (h : ¬ IsEscaped c) : escapeChar c = [c] := by
  simp only [IsEscaped, not_or, Nat.not_lt] at h
  obtain ⟨hquote, hbackslash, hprintable⟩ := h
  rw [escapeChar, if_neg hquote, if_neg hbackslash, if_pos hprintable]

/-- The escape of a control by its code has four digits, two of them zero. -/
theorem escapeCode_eq {c : Char} (h : c.toNat < 0x20) :
    escapeCode c =
      ['\\', 'u', '0', '0', Nat.digitChar (c.toNat / 16), Nat.digitChar (c.toNat % 16)] := by
  unfold escapeCode
  by_cases hone : c.toNat < 16
  · have hdiv : c.toNat / 16 = 0 := by omega
    rw [Nat.toDigits_of_lt_base hone, hdiv, Nat.mod_eq_of_lt hone]
    rfl
  · have hdiv : c.toNat / 16 < 16 := by omega
    rw [Nat.toDigits_of_base_le (by decide) (by omega), Nat.toDigits_of_lt_base hdiv]
    rfl

/-- The byte of a hexadecimal digit. -/
def hexByte (d : Nat) : UInt8 :=
  UInt8.ofNat (Nat.digitChar d).toNat

theorem hexValue?_hexByte : ∀ d < 16, Byte.hexValue? (hexByte d) = some d := by
  decide

theorem encode_digitChar :
    ∀ d < 16, ∀ cs, encode (Nat.digitChar d :: cs) = hexByte d :: encode cs := by
  have hascii : ∀ d < 16, (Nat.digitChar d).toNat < 0x80 := by decide
  exact fun d hd cs => encode_cons_of_lt (hascii d hd) cs

/-- The digits in the escape of a control are read as its code. -/
theorem readCodePoint_control {n : Nat} (h : n < 0x20) (rest : Bytes) :
    readCodePoint (0x30 :: 0x30 :: hexByte (n / 16) :: hexByte (n % 16) :: rest) =
      .ok (n, rest) := by
  have hunit : readCodeUnit (0x30 :: 0x30 :: hexByte (n / 16) :: hexByte (n % 16) :: rest) =
      .ok (n, rest) := by
    have hzero : Byte.hexValue? 0x30 = some 0 := rfl
    have hvalue : ((0 * 16 + 0) * 16 + n / 16) * 16 + n % 16 = n := by omega
    simp only [readCodeUnit, hzero, hexValue?_hexByte _ (show n / 16 < 16 by omega),
      hexValue?_hexByte _ (show n % 16 < 16 by omega), hvalue]
  have hlow : isLowSurrogate n = false := by
    simp [isLowSurrogate]
    omega
  have hhigh : isHighSurrogate n = false := by
    simp [isHighSurrogate]
    omega
  rw [readCodePoint, hunit]
  show (if isLowSurrogate n then _ else _) = _
  rw [hlow, hhigh]
  rfl

/-- The escape of a character starts with a backslash, and what follows is read as the character. -/
theorem readEscape_escapeChar {c : Char} (h : IsEscaped c) :
    ∃ bytes, encode (escapeChar c) = Byte.backslash :: bytes ∧ bytes ≠ [] ∧
      ∀ rest, readEscape (bytes ++ rest) = .ok (String.utf8EncodeChar c, rest) := by
  unfold escapeChar
  split
  · next hc =>
    subst hc
    exact ⟨[Byte.quote], rfl, nofun, fun _ => rfl⟩
  split
  · next hc =>
    subst hc
    exact ⟨[Byte.backslash], rfl, nofun, fun _ => rfl⟩
  next hquote hbackslash =>
  have hcontrol : c.toNat < 0x20 := (h.resolve_left hquote).resolve_left hbackslash
  rw [if_neg (by omega)]
  split
  · next hc =>
    subst hc
    exact ⟨[Byte.lowerN], rfl, nofun, fun _ => rfl⟩
  split
  · next hc =>
    subst hc
    exact ⟨[Byte.lowerT], rfl, nofun, fun _ => rfl⟩
  split
  · next hc =>
    subst hc
    exact ⟨[Byte.lowerR], rfl, nofun, fun _ => rfl⟩
  split
  · next hc =>
    obtain rfl : c = '\x08' := Char.ext (UInt32.toNat_inj.mp hc)
    exact ⟨[Byte.lowerB], rfl, nofun, fun _ => rfl⟩
  split
  · next hc =>
    obtain rfl : c = '\x0C' := Char.ext (UInt32.toNat_inj.mp hc)
    exact ⟨[Byte.lowerF], rfl, nofun, fun _ => rfl⟩
  -- the controls without a letter of their own
  have hbytes : encode (escapeCode c) = [Byte.backslash, Byte.lowerU, 0x30, 0x30,
      hexByte (c.toNat / 16), hexByte (c.toNat % 16)] := by
    rw [escapeCode_eq hcontrol, encode_cons_of_lt (by decide), encode_cons_of_lt (by decide),
      encode_cons_of_lt (by decide), encode_cons_of_lt (by decide),
      encode_digitChar _ (by omega), encode_digitChar _ (by omega)]
    rfl
  refine ⟨_, hbytes, nofun, fun rest => ?_⟩
  show (readCodePoint (0x30 :: 0x30 :: hexByte (c.toNat / 16) :: hexByte (c.toNat % 16) :: rest)
    >>= _) = _
  rw [readCodePoint_control hcontrol]
  show Except.ok (String.utf8EncodeChar (Char.ofNat c.toNat), rest) = _
  rw [Char.ofNat_toNat]

/-! ## Contents -/

/-- Bytes that stand for themselves in a string. -/
def IsLiteral (b : UInt8) : Prop :=
  b ≠ Byte.quote ∧ b ≠ Byte.backslash ∧ ¬ b < 0x20

theorem isLiteral_of_le {b : UInt8} (h : 0x80 ≤ b.toNat) : IsLiteral b := by
  refine ⟨?_, ?_, ?_⟩
  · rintro rfl
    exact absurd h (by decide)
  · rintro rfl
    exact absurd h (by decide)
  · rw [UInt8.lt_iff_toNat_lt]
    show ¬ b.toNat < 0x20
    omega

/-- The bytes of a character that is not escaped stand for themselves. -/
theorem isLiteral_of_mem {c : Char} (hc : ¬ IsEscaped c) {b : UInt8}
    (h : b ∈ String.utf8EncodeChar c) : IsLiteral b := by
  by_cases hascii : c.toNat < 0x80
  · rw [Text.Utf8.encodeChar_of_lt hascii, List.mem_singleton] at h
    have hb : b.toNat = c.toNat := by rw [h, Text.Utf8.toNat_byte (by omega)]
    simp only [IsEscaped, not_or, Nat.not_lt] at hc
    obtain ⟨hquote, hbackslash, hprintable⟩ := hc
    refine ⟨?_, ?_, ?_⟩
    · rintro rfl
      exact hquote (Char.ext (UInt32.toNat_inj.mp hb.symm))
    · rintro rfl
      exact hbackslash (Char.ext (UInt32.toNat_inj.mp hb.symm))
    · rw [UInt8.lt_iff_toNat_lt, hb]
      show ¬ c.toNat < 0x20
      omega
  · exact isLiteral_of_le (Text.Utf8.le_of_mem_encodeChar (by omega) h)

/-- Bytes that stand for themselves are taken over, one piece each. -/
theorem readContents_literal {piece : Bytes} (hpiece : ∀ b ∈ piece, IsLiteral b) (fuel : Nat)
    {rest contents more : Bytes} (h : readContents fuel rest = .ok (contents, more)) :
    readContents (fuel + piece.length) (piece ++ rest) = .ok (piece ++ contents, more) := by
  induction piece with
  | nil => exact h
  | cons b piece ih =>
    obtain ⟨hquote, hbackslash, hprintable⟩ := hpiece b List.mem_cons_self
    have hrest := ih fun b' hb' => hpiece b' (List.mem_cons_of_mem b hb')
    show readContents (fuel + piece.length + 1) (b :: (piece ++ rest)) = _
    rw [readContents, if_neg hquote, if_neg hbackslash, if_neg hprintable, hrest]
    rfl

/-- The contents of a printed string are read up to its closing quote. -/
theorem readContents_escaped (cs : List Char) (rest : Bytes) {fuel : Nat}
    (hfuel : (encode (cs.flatMap escapeChar)).length < fuel) :
    readContents fuel (encode (cs.flatMap escapeChar) ++ Byte.quote :: rest) =
      .ok (encode cs, rest) := by
  induction cs generalizing fuel with
  | nil =>
    obtain ⟨fuel, rfl⟩ := Nat.exists_eq_add_one_of_ne_zero (Nat.ne_zero_of_lt hfuel)
    rfl
  | cons c cs ih =>
    rw [List.flatMap_cons, encode_append, List.length_append] at hfuel
    rw [List.flatMap_cons, encode_append, List.append_assoc, encode_cons]
    by_cases hc : IsEscaped c
    · -- an escape is one piece
      obtain ⟨bytes, hbytes, hne, hread⟩ := readEscape_escapeChar hc
      have hlength := List.length_pos_of_ne_nil hne
      rw [hbytes, List.length_cons] at hfuel
      obtain ⟨fuel, rfl⟩ := Nat.exists_eq_add_one_of_ne_zero (Nat.ne_zero_of_lt hfuel)
      rw [hbytes, List.cons_append, readContents, if_neg (by decide), if_pos rfl, hread]
      show (readContents fuel _ >>= _) = _
      rw [ih (by omega)]
      rfl
    · -- any other character is as many pieces as bytes
      rw [escapeChar_of_not_isEscaped hc] at hfuel ⊢
      have hone : encode [c] = String.utf8EncodeChar c := List.flatMap_singleton ..
      rw [hone] at hfuel ⊢
      obtain ⟨less, rfl⟩ : ∃ less, fuel = less + (String.utf8EncodeChar c).length :=
        ⟨fuel - (String.utf8EncodeChar c).length, by omega⟩
      exact readContents_literal (fun b hb => isLiteral_of_mem hc hb) less (ih (by omega))

/-- A printed string is read back, from behind its opening quote. -/
theorem readString_escaped (s : String) (rest : Bytes) :
    readString (encode (s.toList.flatMap escapeChar) ++ Byte.quote :: rest) = .ok (s, rest) := by
  unfold readString
  rw [readContents_escaped s.toList rest (by rw [List.length_append]; omega)]
  have htext : Text.ofBytes? (encode s.toList) = some s := Text.ofBytes?_toBytes s
  dsimp only [bind, Except.bind]
  rw [htext]
  rfl

/-- A printed string starts with a quote. -/
theorem encode_renderString (s : String) (rest : Bytes) :
    encode (renderString s) ++ rest =
      Byte.quote :: (encode (s.toList.flatMap escapeChar) ++ Byte.quote :: rest) := by
  rw [renderString, List.cons_append, encode_cons_of_lt (by decide), encode_append,
    List.cons_append, List.append_assoc]
  rfl

end Invigilation.Json
