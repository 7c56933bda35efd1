import Invigilation.Proofs.Json.Spelling
import Invigilation.Proofs.Json.Values

/-!
# Reading the spellings of strings

However a string is spelled, it is read as its characters, and it is refused when a surrogate in it
is not one of a pair.

- `readCodeUnit_text`, `readEscape_short`: what an escape is read as.
- `toOption_readLowSurrogate_unit`, `toOption_readLowSurrogate_other`: only a second code unit
  completes a pair.
- `toOption_readString`: **a string is read as what its pieces stand for**.
-/

namespace Invigilation.Json

open Text (Bytes)
open Text.Utf8 (encode)

/-! ## Escapes -/

/-- The digits of a code unit are read as its value. -/
theorem readCodeUnit_text (u : CodeUnit) (rest : Bytes) :
    readCodeUnit (u.text ++ rest) = .ok (u.value, rest) := by
  have hdigit := fun b hb => Option.isSome_iff_exists.mp (u.areDigits b hb)
  obtain ⟨n₁, h₁⟩ := hdigit u.first (by simp)
  obtain ⟨n₂, h₂⟩ := hdigit u.second (by simp)
  obtain ⟨n₃, h₃⟩ := hdigit u.third (by simp)
  obtain ⟨n₄, h₄⟩ := hdigit u.fourth (by simp)
  simp [CodeUnit.text, CodeUnit.value, readCodeUnit, h₁, h₂, h₃, h₄]

/-- A letter is read as the character that it escapes. -/
theorem readEscape_short {letter : UInt8} {c : Char} (h : (letter, c) ∈ shortEscapes)
    (rest : Bytes) : readEscape (letter :: rest) = .ok (String.utf8EncodeChar c, rest) := by
  simp only [shortEscapes, List.mem_cons, List.not_mem_nil, or_false, Prod.mk.injEq] at h
  rcases h with ⟨rfl, rfl⟩ | ⟨rfl, rfl⟩ | ⟨rfl, rfl⟩ | ⟨rfl, rfl⟩ | ⟨rfl, rfl⟩ | ⟨rfl, rfl⟩ |
    ⟨rfl, rfl⟩ | ⟨rfl, rfl⟩ <;> rfl

theorem ne_lowerU_of_mem {letter : UInt8} {c : Char} (h : (letter, c) ∈ shortEscapes) :
    letter ≠ Byte.lowerU := by
  have hall : ∀ e ∈ shortEscapes, e.1 ≠ Byte.lowerU := by decide
  exact hall _ h

/-- The bytes of a character that stands for itself start with one that does. -/
theorem exists_literal {c : Char} (h : ¬ IsEscaped c) :
    ∃ b bytes, String.utf8EncodeChar c = b :: bytes ∧ IsLiteral b := by
  cases hbytes : String.utf8EncodeChar c with
  | nil => exact absurd hbytes String.utf8EncodeChar_ne_nil
  | cons b bytes => exact ⟨b, bytes, rfl, isLiteral_of_mem h (hbytes ▸ List.mem_cons_self)⟩

/-- A code unit completes a surrogate pair, if it is a second one. -/
theorem toOption_readLowSurrogate_unit (u : CodeUnit) (rest : Bytes) :
    (readLowSurrogate ((Piece.unit u).text ++ rest)).toOption =
      if isLowSurrogate u.value then some (u.value, rest) else none := by
  show (readLowSurrogate (Byte.backslash :: Byte.lowerU :: (u.text ++ rest))).toOption = _
  rw [readLowSurrogate, if_neg (by simp), if_neg (by simp), readCodeUnit_text]
  show Except.toOption (if isLowSurrogate u.value then _ else _) = _
  split <;> rfl

/-- Nothing else completes it. -/
theorem toOption_readLowSurrogate_other {s : List Piece} (h : ∀ u later, s ≠ .unit u :: later)
    (rest : Bytes) :
    (readLowSurrogate (s.flatMap Piece.text ++ Byte.quote :: rest)).toOption = none := by
  cases s with
  | nil => rfl
  | cons piece later =>
    rw [List.flatMap_cons, List.append_assoc]
    cases piece with
    | unit u => exact absurd rfl (h u later)
    | char c hc =>
      obtain ⟨b, bytes, hbytes, -, hbackslash, -⟩ := exists_literal hc
      rw [Piece.text, hbytes, List.cons_append, readLowSurrogate.eq_def]
      exact congrArg Except.toOption (if_pos hbackslash)
    | short letter c hc =>
      show (readLowSurrogate (Byte.backslash :: letter :: _)).toOption = none
      rw [readLowSurrogate, if_neg (by simp), if_pos (ne_lowerU_of_mem hc)]
      rfl

/-! ## Contents -/

/-- A first surrogate is read with what follows it. -/
theorem readEscape_high {u : CodeUnit} (hlow : ¬ isLowSurrogate u.value = true)
    (hhigh : isHighSurrogate u.value = true) (rest : Bytes) :
    (readEscape (Byte.lowerU :: (u.text ++ rest))).toOption =
      (readLowSurrogate rest).toOption.map fun r =>
        (String.utf8EncodeChar (pairedChar u.value r.1), r.2) := by
  show (readCodePoint (u.text ++ rest) >>= _).toOption = _
  rw [readCodePoint, readCodeUnit_text, toOption_bind]
  show (Except.toOption (if isLowSurrogate u.value then _ else _)).bind _ = _
  rw [if_neg hlow, if_pos hhigh]
  cases readLowSurrogate rest <;> rfl

/-- Any other code unit is read as its character, but for a second surrogate. -/
theorem readEscape_unit {u : CodeUnit} (hhigh : ¬ isHighSurrogate u.value = true) (rest : Bytes) :
    (readEscape (Byte.lowerU :: (u.text ++ rest))).toOption =
      if isLowSurrogate u.value then none
      else some (String.utf8EncodeChar (.ofNat u.value), rest) := by
  show (readCodePoint (u.text ++ rest) >>= _).toOption = _
  rw [readCodePoint, readCodeUnit_text, toOption_bind]
  show (Except.toOption (if isLowSurrogate u.value then _ else _)).bind _ = _
  by_cases hlow : isLowSurrogate u.value = true
  · rw [if_pos hlow, if_pos hlow]
    rfl
  · rw [if_neg hlow, if_neg hlow, if_neg hhigh]
    rfl

/-- An escape is one piece of the contents. -/
theorem toOption_readContents_escape (fuel : Nat) (bytes : Bytes) :
    (readContents (fuel + 1) (Byte.backslash :: bytes)).toOption =
      (readEscape bytes).toOption.bind fun r =>
        (readContents fuel r.2).toOption.map fun s => (r.1 ++ s.1, s.2) := by
  rw [readContents, if_neg (by decide), if_pos rfl, toOption_bind]
  congr 1
  funext r
  show (readContents fuel r.2 >>= _).toOption = _
  cases readContents fuel r.2 <;> rfl

/-- Bytes that stand for themselves are one piece each. -/
theorem toOption_readContents_literal {bytes : Bytes} (h : ∀ b ∈ bytes, IsLiteral b) (fuel : Nat)
    (rest : Bytes) :
    (readContents (fuel + bytes.length) (bytes ++ rest)).toOption =
      (readContents fuel rest).toOption.map fun s => (bytes ++ s.1, s.2) := by
  induction bytes with
  | nil => exact Option.map_id'.symm
  | cons b bytes ih =>
    obtain ⟨hquote, hbackslash, hprintable⟩ := h b List.mem_cons_self
    have hrest := ih fun b' hb' => h b' (List.mem_cons_of_mem b hb')
    show (readContents (fuel + bytes.length + 1) (b :: (bytes ++ rest))).toOption = _
    rw [readContents, if_neg hquote, if_neg hbackslash, if_neg hprintable, toOption_bind, hrest,
      Option.bind_map]
    cases (readContents fuel rest).toOption <;> rfl

/-- An escape in front of contents that are read as some characters. -/
theorem toOption_readContents_cons {bytes more rest : Bytes} {c : Char} {cs : Option (List Char)}
    {fuel : Nat} (hread : (readEscape bytes).toOption = some (String.utf8EncodeChar c, more))
    (hmore : (readContents fuel more).toOption = cs.map fun cs => (encode cs, rest)) :
    (readContents (fuel + 1) (Byte.backslash :: bytes)).toOption =
      (cs.map (c :: ·)).map fun cs => (encode cs, rest) := by
  rw [toOption_readContents_escape, hread, Option.bind_some, hmore]
  cases cs <;> rfl

theorem toOption_readContents_none {bytes : Bytes} (fuel : Nat)
    (hread : (readEscape bytes).toOption = none) :
    (readContents (fuel + 1) (Byte.backslash :: bytes)).toOption = none := by
  rw [toOption_readContents_escape, hread]
  rfl

/-- The contents of a string are read as its characters, up to the closing quote. -/
theorem toOption_readContents (s : List Piece) (rest : Bytes) {fuel : Nat}
    (hfuel : (s.flatMap Piece.text).length < fuel) :
    (readContents fuel (s.flatMap Piece.text ++ Byte.quote :: rest)).toOption =
      (chars? s).map fun cs => (encode cs, rest) := by
  -- the cases are those of the characters: a pair of code units is one step
  induction s using chars?.induct generalizing fuel with
  | case1 =>
    obtain ⟨fuel, rfl⟩ := Nat.exists_eq_add_one_of_ne_zero (Nat.ne_zero_of_lt hfuel)
    rfl
  | case2 c hc later ih =>
    simp only [List.flatMap_cons, Piece.text, List.length_append] at hfuel
    -- a character is as many pieces as bytes
    obtain ⟨less, rfl⟩ : ∃ less, fuel = less + (String.utf8EncodeChar c).length :=
      ⟨fuel - (String.utf8EncodeChar c).length, by omega⟩
    have hlater := @ih less (by omega)
    rw [List.flatMap_cons, List.append_assoc, Piece.text,
      toOption_readContents_literal (fun b hb => isLiteral_of_mem hc hb), hlater, chars?]
    cases chars? later <;> rfl
  | case3 letter c hc later ih =>
    simp only [List.flatMap_cons, Piece.text, List.length_append, List.length_cons] at hfuel
    obtain ⟨fuel, rfl⟩ := Nat.exists_eq_add_one_of_ne_zero (Nat.ne_zero_of_lt hfuel)
    have hread := congrArg Except.toOption (readEscape_short hc
      (later.flatMap Piece.text ++ Byte.quote :: rest))
    exact toOption_readContents_cons hread (ih (by omega))
  | case4 u later hlow =>
    -- a second surrogate without a first one
    obtain ⟨fuel, rfl⟩ := Nat.exists_eq_add_one_of_ne_zero (Nat.ne_zero_of_lt hfuel)
    have hhigh : ¬ isHighSurrogate u.value = true := by
      simp only [isLowSurrogate, isHighSurrogate, Bool.and_eq_true, decide_eq_true_eq] at hlow ⊢
      omega
    have hread := readEscape_unit hhigh (later.flatMap Piece.text ++ Byte.quote :: rest)
    rw [if_pos hlow] at hread
    rw [chars?.eq_def]
    dsimp only
    rw [if_pos hlow, List.flatMap_cons, List.append_assoc]
    exact toOption_readContents_none fuel hread
  | case5 u hlow hhigh low later hlow' ih =>
    -- a pair
    simp only [List.flatMap_cons, Piece.text, List.length_append, List.length_cons] at hfuel
    obtain ⟨fuel, rfl⟩ := Nat.exists_eq_add_one_of_ne_zero (Nat.ne_zero_of_lt hfuel)
    have hread := readEscape_high hlow hhigh
      ((Piece.unit low).text ++ (later.flatMap Piece.text ++ Byte.quote :: rest))
    rw [toOption_readLowSurrogate_unit, if_pos hlow'] at hread
    have hmore := toOption_readContents_cons hread (@ih fuel (by omega))
    rw [chars?, if_neg hlow, if_pos hhigh, if_pos hlow', List.flatMap_cons, List.flatMap_cons,
      List.append_assoc, List.append_assoc]
    exact hmore
  | case6 u hlow hhigh low later hlow' =>
    -- a first surrogate before a code unit that is no second one
    obtain ⟨fuel, rfl⟩ := Nat.exists_eq_add_one_of_ne_zero (Nat.ne_zero_of_lt hfuel)
    have hread := readEscape_high hlow hhigh
      ((Piece.unit low).text ++ (later.flatMap Piece.text ++ Byte.quote :: rest))
    rw [toOption_readLowSurrogate_unit, if_neg hlow'] at hread
    rw [chars?, if_neg hlow, if_pos hhigh, if_neg hlow', List.flatMap_cons, List.flatMap_cons,
      List.append_assoc, List.append_assoc]
    exact toOption_readContents_none fuel hread
  | case7 u later hlow hhigh hother =>
    -- a first surrogate before anything else
    obtain ⟨fuel, rfl⟩ := Nat.exists_eq_add_one_of_ne_zero (Nat.ne_zero_of_lt hfuel)
    have hread := readEscape_high hlow hhigh (later.flatMap Piece.text ++ Byte.quote :: rest)
    rw [toOption_readLowSurrogate_other hother] at hread
    have hchars : chars? (.unit u :: later) = none := by
      rw [chars?.eq_def]
      dsimp only
      rw [if_neg hlow, if_pos hhigh]
      split
      · next low rest => exact absurd rfl (hother low rest)
      · rfl
    rw [hchars, List.flatMap_cons, List.append_assoc]
    exact toOption_readContents_none fuel hread
  | case8 u later hlow hhigh ih =>
    -- a code unit that is no surrogate
    simp only [List.flatMap_cons, Piece.text, List.length_append, List.length_cons] at hfuel
    obtain ⟨fuel, rfl⟩ := Nat.exists_eq_add_one_of_ne_zero (Nat.ne_zero_of_lt hfuel)
    have hread := readEscape_unit hhigh (later.flatMap Piece.text ++ Byte.quote :: rest)
    rw [if_neg hlow] at hread
    have hmore := toOption_readContents_cons hread (@ih fuel (by omega))
    rw [chars?.eq_def]
    dsimp only
    rw [if_neg hlow, if_neg hhigh, List.flatMap_cons, List.append_assoc]
    exact hmore

/-- **A string is read as what its pieces stand for**, from behind its opening quote. -/
theorem toOption_readString (s : List Piece) (rest : Bytes) :
    (readString (s.flatMap Piece.text ++ Byte.quote :: rest)).toOption =
      (string? s).map fun t => (t, rest) := by
  have hfuel : (s.flatMap Piece.text).length <
      (s.flatMap Piece.text ++ Byte.quote :: rest).length + 1 := by
    rw [List.length_append]
    omega
  rw [readString, toOption_bind, toOption_readContents s rest hfuel, string?]
  cases chars? s with
  | none => rfl
  | some cs =>
    have htext := Text.ofBytes?_toBytes (String.ofList cs)
    rw [Text.toBytes, String.toList_ofList] at htext
    rw [Option.map_some, Option.bind_some]
    dsimp only
    rw [htext]
    rfl

end Invigilation.Json
