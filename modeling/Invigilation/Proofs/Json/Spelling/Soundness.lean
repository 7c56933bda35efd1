import Invigilation.Proofs.Json.Origin
import Invigilation.Proofs.Json.Spelling.Values
import Invigilation.Proofs.Text.Utf8.Decoding

/-!
# Only spellings are read

What a reader took from the front of its bytes follows the grammar: it is the text of a spelling,
with blanks in front of it. So a text is read exactly if it is a spelling within the limits, and as
what that stands for.

- `exists_pieces`, `exists_numeral`: the bytes of a string and of a number that were read.
- `SpellsOnly`: a reader takes texts of spellings alone.
- `exists_items`, `exists_members`: the bytes of containers, by induction on the steps.
- `spellsOnly_readValue`: **only spellings are read**.
- `parse_eq_ok_iff`: **the texts of JSON and their values**.
-/

namespace Invigilation.Json

open Text (Bytes)
open Text.Utf8 (encode IsContinuation)

/-! ## Blanks -/

/-- Blanks behind blanks. -/
def Blanks.append (a b : Blanks) : Blanks :=
  ⟨a.1 ++ b.1, List.forall_mem_append.mpr ⟨a.2, b.2⟩⟩

/-- What is skipped is blank. -/
theorem exists_blanks (bs : Bytes) : ∃ blanks : Blanks, bs = blanks.1 ++ skipSpaces bs :=
  ⟨⟨bs.takeWhile Byte.isSpace, List.all_eq_true.mp List.all_takeWhile⟩,
    List.takeWhile_append_dropWhile.symm⟩

/-! ## Strings -/

theorem exists_codeUnit {bs rest : Bytes} {n : Nat} (h : readCodeUnit bs = .ok (n, rest)) :
    ∃ u : CodeUnit, bs = u.text ++ rest := by
  unfold readCodeUnit at h
  split at h
  · next a b c d more =>
    split at h
    · next ha hb hc hd =>
      obtain ⟨-, rfl⟩ := Prod.mk.inj (Except.ok.inj h)
      refine ⟨⟨a, b, c, d, ?_⟩, rfl⟩
      simp [ha, hb, hc, hd]
    · cases h
  · cases h

theorem exists_lowSurrogate {bs rest : Bytes} {n : Nat} (h : readLowSurrogate bs = .ok (n, rest)) :
    ∃ u : CodeUnit, bs = (Piece.unit u).text ++ rest := by
  unfold readLowSurrogate at h
  split at h
  · cases h
  · next b more =>
    by_cases hb : b = Byte.backslash
    · rw [if_neg (not_not.mpr hb)] at h
      split at h
      · cases h
      · next c more' =>
        by_cases hc : c = Byte.lowerU
        · rw [if_neg (not_not.mpr hc)] at h
          split at h
          · cases h
          · next low left hunit =>
            split at h
            · obtain ⟨-, rfl⟩ := Prod.mk.inj (Except.ok.inj h)
              obtain ⟨u, hu⟩ := exists_codeUnit hunit
              exact ⟨u, by rw [hb, hc, hu]; rfl⟩
            · cases h
        · rw [if_pos hc] at h
          cases h
    · rw [if_pos hb] at h
      cases h

/-- A code point is read from one code unit or from two. -/
theorem exists_codePoint {bs rest : Bytes} {n : Nat} (h : readCodePoint bs = .ok (n, rest)) :
    ∃ s : List Piece, Byte.backslash :: Byte.lowerU :: bs = s.flatMap Piece.text ++ rest := by
  obtain ⟨⟨high, behind⟩, hunit, hpair⟩ := ok_of_bind h
  obtain ⟨u, hu⟩ := exists_codeUnit hunit
  dsimp only at hpair
  split at hpair
  · cases hpair
  split at hpair
  · obtain ⟨⟨low, last⟩, hlow, hlast⟩ := ok_of_bind hpair
    obtain ⟨-, rfl⟩ := Prod.mk.inj (Except.ok.inj hlast)
    obtain ⟨v, hv⟩ := exists_lowSurrogate hlow
    exact ⟨[.unit u, .unit v], by simp [hu, hv, Piece.text]⟩
  · obtain ⟨-, rfl⟩ := Prod.mk.inj (Except.ok.inj hpair)
    exact ⟨[.unit u], by simp [hu, Piece.text]⟩

/-- What an escape is read as is one character, and its bytes are one piece or two. -/
theorem exists_escape {bs rest bytes : Bytes} (h : readEscape bs = .ok (bytes, rest)) :
    ∃ (s : List Piece) (c : Char), bytes = String.utf8EncodeChar c ∧
      Byte.backslash :: bs = s.flatMap Piece.text ++ rest := by
  have hshort : ∀ (letter : UInt8) (c : Char), (letter, c) ∈ shortEscapes → ∀ more bytes' : Bytes,
      (Except.ok (bytes', more) : Except Fault (Bytes × Bytes)) = .ok (bytes, rest) →
      bytes' = String.utf8EncodeChar c → ∃ (s : List Piece) (c : Char),
        bytes = String.utf8EncodeChar c ∧
          Byte.backslash :: letter :: more = s.flatMap Piece.text ++ rest := by
    rintro letter c hc more bytes' heq rfl
    obtain ⟨rfl, rfl⟩ := Prod.mk.inj (Except.ok.inj heq)
    exact ⟨[.short letter c hc], c, rfl, rfl⟩
  unfold readEscape at h
  split at h
  · cases h
  · exact hshort _ '"' (by simp [shortEscapes]) _ _ h rfl
  · exact hshort _ '\\' (by simp [shortEscapes]) _ _ h rfl
  · exact hshort _ '/' (by simp [shortEscapes]) _ _ h rfl
  · exact hshort _ '\x08' (by simp [shortEscapes]) _ _ h rfl
  · exact hshort _ '\x0C' (by simp [shortEscapes]) _ _ h rfl
  · exact hshort _ '\n' (by simp [shortEscapes]) _ _ h rfl
  · exact hshort _ '\r' (by simp [shortEscapes]) _ _ h rfl
  · exact hshort _ '\t' (by simp [shortEscapes]) _ _ h rfl
  · obtain ⟨⟨n, left⟩, hpoint, hresult⟩ := ok_of_bind h
    obtain ⟨rfl, rfl⟩ := Prod.mk.inj (Except.ok.inj hresult)
    obtain ⟨s, hs⟩ := exists_codePoint hpoint
    exact ⟨s, _, rfl, hs⟩
  · cases h

/-- A character whose first byte stands for itself is not escaped. -/
theorem not_isEscaped_of_isLiteral {c : Char} {b : UInt8} {bs : Bytes}
    (hc : String.utf8EncodeChar c = b :: bs) (hb : IsLiteral b) : ¬ IsEscaped c := by
  obtain ⟨hquote, hbackslash, hprintable⟩ := hb
  have hbyte : c.toNat < 0x80 → b = UInt8.ofNat c.toNat := by
    intro hascii
    rw [Text.Utf8.encodeChar_of_lt hascii] at hc
    exact (List.cons_eq_cons.mp hc).1.symm
  rintro (rfl | rfl | hcontrol)
  · exact hquote (hbyte (by decide))
  · exact hbackslash (hbyte (by decide))
  · refine hprintable ?_
    rw [hbyte (by omega), UInt8.lt_iff_toNat_lt, Text.Utf8.toNat_byte (by omega)]
    exact hcontrol

/-- The contents of a string, from inside a character on: the bytes that continue it come first, and
then those of whole pieces. -/
theorem exists_contents (tail : Bytes) {fuel : Nat} {bs rest contents : Bytes} {cs : List Char}
    (h : readContents fuel bs = .ok (contents, rest)) (hcontents : contents = tail ++ encode cs)
    (htail : ∀ b ∈ tail, IsContinuation b) :
    ∃ s : List Piece, bs = tail ++ (s.flatMap Piece.text ++ Byte.quote :: rest) := by
  induction fuel generalizing bs contents tail cs with
  | zero => cases h
  | succ fuel ih =>
    cases bs with
    | nil => cases h
    | cons b bs =>
      rw [readContents] at h
      by_cases hquote : b = Byte.quote
      · rw [if_pos hquote] at h
        obtain ⟨rfl, rfl⟩ := Prod.mk.inj (Except.ok.inj h)
        obtain ⟨rfl, -⟩ := List.append_eq_nil_iff.mp hcontents.symm
        exact ⟨[], by rw [hquote]; rfl⟩
      rw [if_neg hquote] at h
      by_cases hbackslash : b = Byte.backslash
      · rw [if_pos hbackslash] at h
        obtain ⟨⟨bytes, behind⟩, hescape, h⟩ := ok_of_bind h
        obtain ⟨⟨more, last⟩, hmore, h⟩ := ok_of_bind h
        obtain ⟨rfl, rfl⟩ := Prod.mk.inj (Except.ok.inj h)
        obtain ⟨piece, c, rfl, hpiece⟩ := exists_escape hescape
        cases tail with
        | nil =>
          obtain ⟨cs', -, hcs'⟩ := Text.Utf8.cons_of_encode hcontents.symm
          obtain ⟨s, rfl⟩ := ih [] hmore hcs' (List.forall_mem_nil _)
          refine ⟨piece ++ s, ?_⟩
          rw [hbackslash, hpiece, List.flatMap_append]
          simp only [List.nil_append, List.append_assoc]
        | cons t ts =>
          -- an escape does not continue a character
          cases hc : String.utf8EncodeChar c with
          | nil => exact absurd hc String.utf8EncodeChar_ne_nil
          | cons d ds =>
            rw [hc] at hcontents
            obtain rfl : d = t := (List.cons_eq_cons.mp hcontents).1
            exact absurd (htail d List.mem_cons_self)
              (Text.Utf8.isContinuation_of_encodeChar hc).1
      rw [if_neg hbackslash] at h
      by_cases hcontrol : b < 0x20
      · rw [if_pos hcontrol] at h
        cases h
      rw [if_neg hcontrol] at h
      obtain ⟨⟨more, last⟩, hmore, h⟩ := ok_of_bind h
      obtain ⟨rfl, rfl⟩ := Prod.mk.inj (Except.ok.inj h)
      cases tail with
      | nil =>
        cases cs with
        | nil => cases hcontents
        | cons c cs =>
          cases hc : String.utf8EncodeChar c with
          | nil => exact absurd hc String.utf8EncodeChar_ne_nil
          | cons d ds =>
            rw [List.nil_append, encode_cons, hc] at hcontents
            obtain ⟨rfl, hleft⟩ := List.cons_eq_cons.mp hcontents
            obtain ⟨s, rfl⟩ := ih _ hmore hleft (Text.Utf8.isContinuation_of_encodeChar hc).2
            refine ⟨.char c (not_isEscaped_of_isLiteral hc ⟨hquote, hbackslash, hcontrol⟩) :: s, ?_⟩
            rw [List.flatMap_cons, Piece.text, hc]
            simp only [List.nil_append, List.cons_append, List.append_assoc]
      | cons t ts =>
        obtain ⟨rfl, hleft⟩ := List.cons_eq_cons.mp hcontents
        obtain ⟨s, rfl⟩ := ih _ hmore hleft fun b' hb' => htail b' (List.mem_cons_of_mem _ hb')
        exact ⟨s, rfl⟩

/-- A string that was read consists of pieces. -/
theorem exists_pieces {bs rest : Bytes} {text : String} (h : readString bs = .ok (text, rest)) :
    ∃ s : List Piece, bs = s.flatMap Piece.text ++ Byte.quote :: rest := by
  obtain ⟨⟨contents, left⟩, hcontents, h⟩ := ok_of_bind h
  dsimp only at h
  split at h
  · next t htext =>
    obtain ⟨-, rfl⟩ := Prod.mk.inj (Except.ok.inj h)
    obtain ⟨cs, hcs, -⟩ := Option.map_eq_some_iff.mp htext
    exact exists_contents [] hcontents (Text.Utf8.eq_encode hcs) (List.forall_mem_nil _)
  · cases h

/-! ## Numbers -/

/-- Digits in front of bytes. -/
theorem exists_digitRun (s : Nat) (bs : Bytes) :
    ∃ ds, (∀ b ∈ ds, Byte.isDigit b = true) ∧ bs = ds ++ (readDigitRun s bs).rest ∧
      (ds = [] → (readDigitRun s bs).kept = 0 ∧ (readDigitRun s bs).dropped = 0) := by
  induction bs generalizing s with
  | nil => exact ⟨[], List.forall_mem_nil _, rfl, fun _ => ⟨rfl, rfl⟩⟩
  | cons b bs ih =>
    rw [readDigitRun]
    by_cases hb : Byte.isDigit b = true
    · rw [if_pos hb]
      split
      · obtain ⟨ds, hds, hbs, -⟩ := ih (s * 10 + Byte.digitValue b)
        exact ⟨b :: ds, List.forall_mem_cons.mpr ⟨hb, hds⟩, congrArg (b :: ·) hbs, by simp⟩
      · refine ⟨b :: bs.takeWhile Byte.isDigit, List.forall_mem_cons.mpr ⟨hb, ?_⟩, ?_, by simp⟩
        · exact List.all_eq_true.mp List.all_takeWhile
        · rw [List.cons_append]
          exact congrArg (b :: ·) List.takeWhile_append_dropWhile.symm
    · rw [if_neg hb]
      exact ⟨[], List.forall_mem_nil _, rfl, fun _ => ⟨rfl, rfl⟩⟩

theorem exists_exponentDigits (n : Nat) (bs : Bytes) :
    ∃ ds, (∀ b ∈ ds, Byte.isDigit b = true) ∧ bs = ds ++ (readExponentDigits n bs).2 := by
  induction bs generalizing n with
  | nil => exact ⟨[], List.forall_mem_nil _, rfl⟩
  | cons b bs ih =>
    rw [readExponentDigits]
    by_cases hb : Byte.isDigit b = true
    · rw [if_pos hb]
      split
      · obtain ⟨ds, hds, hbs⟩ := ih (n * 10 + Byte.digitValue b)
        exact ⟨b :: ds, List.forall_mem_cons.mpr ⟨hb, hds⟩, congrArg (b :: ·) hbs⟩
      · exact ⟨[b], List.forall_mem_singleton.mpr hb, rfl⟩
    · rw [if_neg hb]
      exact ⟨[], List.forall_mem_nil _, rfl⟩

variable {negative : Bool} {significand dropped : Nat} {power : Int} {bs rest : Bytes} {w : Json}

theorem eq_of_scaled (h : scaled negative significand power bs = .ok (w, rest)) : bs = rest := by
  unfold scaled at h
  split at h
  · exact (Prod.mk.inj (Except.ok.inj h)).2
  · cases h

theorem eq_of_integerValue (h : integerValue negative significand dropped bs = .ok (w, rest)) :
    bs = rest := by
  unfold integerValue at h
  split at h
  · exact eq_of_scaled h
  split at h
  · exact (Prod.mk.inj (Except.ok.inj h)).2
  split at h
  · exact (Prod.mk.inj (Except.ok.inj h)).2
  · exact eq_of_scaled h

/-- An exponent has a digit or more. -/
theorem exists_exponentFrom {down : Bool}
    (h : readExponentFrom negative significand power down bs = .ok (w, rest)) :
    ∃ digits : Digits, bs = digits.1 ++ rest := by
  cases bs with
  | nil => cases h
  | cons b bs =>
    rw [readExponentFrom] at h
    by_cases hb : Byte.isDigit b = true
    · rw [if_pos hb] at h
      obtain ⟨ds, hds, hbs⟩ := exists_exponentDigits (Byte.digitValue b) bs
      -- the digits that are taken in, and those behind an exponent that is out of bounds
      have hdigits : ∀ more : Bytes, (∀ b' ∈ more, Byte.isDigit b' = true) →
          (readExponentDigits (Byte.digitValue b) bs).2 = more ++ rest →
          ∃ digits : Digits, b :: bs = digits.1 ++ rest := by
        intro more hmore hrest
        refine ⟨⟨b :: (ds ++ more), List.cons_ne_nil _ _, ?_⟩, ?_⟩
        · exact List.forall_mem_cons.mpr ⟨hb, List.forall_mem_append.mpr ⟨hds, hmore⟩⟩
        · rw [hrest] at hbs
          rw [hbs, List.cons_append, List.append_assoc]
      split at h
      · next n left hread =>
        refine hdigits [] (List.forall_mem_nil _) ?_
        rw [hread]
        exact eq_of_scaled h
      · next left hread =>
        split at h
        · cases h
        · obtain ⟨-, hleft⟩ := Prod.mk.inj (Except.ok.inj h)
          refine hdigits (left.takeWhile Byte.isDigit) (List.all_eq_true.mp List.all_takeWhile) ?_
          rw [hread, ← hleft]
          exact List.takeWhile_append_dropWhile.symm
    · rw [if_neg hb] at h
      cases h

theorem exists_exponent {letter : UInt8} (hletter : isExponentLetter letter = true)
    (h : readExponent negative significand power bs = .ok (w, rest)) :
    ∃ e : Exponent, letter :: bs = e.text ++ rest := by
  cases bs with
  | nil => cases h
  | cons b bs =>
    rw [readExponent] at h
    split at h
    · next hplus =>
      obtain ⟨digits, rfl⟩ := exists_exponentFrom h
      exact ⟨⟨letter, hletter, some .plus, digits⟩, by rw [hplus]; rfl⟩
    split at h
    · next hminus =>
      obtain ⟨digits, rfl⟩ := exists_exponentFrom h
      exact ⟨⟨letter, hletter, some .minus, digits⟩, by rw [hminus]; rfl⟩
    · obtain ⟨digits, hdigits⟩ := exists_exponentFrom h
      exact ⟨⟨letter, hletter, none, digits⟩, by rw [hdigits]; rfl⟩

/-- A fraction has a digit or more, and perhaps an exponent behind it. -/
theorem exists_fraction (h : readFraction negative significand power bs = .ok (w, rest)) :
    ∃ (f : Digits) (e : Option Exponent), bs = f.1 ++ (e.elim [] Exponent.text ++ rest) := by
  obtain ⟨ds, hds, hbs, hempty⟩ := exists_digitRun significand bs
  unfold readFraction at h
  dsimp only at h
  split at h
  · split at h <;> cases h
  · next hne =>
    let f : Digits := ⟨ds, fun hnil => hne (hempty hnil), hds⟩
    split at h
    · next hrest =>
      obtain rfl := eq_of_scaled h
      exact ⟨f, none, by rw [hrest] at hbs; exact hbs⟩
    · next b left hrest =>
      split at h
      · next hletter =>
        obtain ⟨e, he⟩ := exists_exponent hletter h
        exact ⟨f, some e, by rw [hrest, he] at hbs; exact hbs⟩
      · obtain rfl := eq_of_scaled h
        exact ⟨f, none, by rw [hrest] at hbs; exact hbs⟩

/-- What follows the integer digits of a number. -/
theorem exists_afterInteger (h : readAfterInteger negative significand dropped bs = .ok (w, rest)) :
    ∃ (f : Option Digits) (e : Option Exponent),
      bs = (f.elim [] fun f => Byte.point :: f.1) ++ e.elim [] Exponent.text ++ rest := by
  cases bs with
  | nil =>
    obtain rfl := eq_of_integerValue h
    exact ⟨none, none, rfl⟩
  | cons b bs =>
    rw [readAfterInteger] at h
    split at h
    · next hpoint =>
      obtain ⟨f, e, rfl⟩ := exists_fraction h
      exact ⟨some f, e, by simp [hpoint]⟩
    split at h
    · next hletter =>
      obtain ⟨e, he⟩ := exists_exponent hletter h
      exact ⟨none, some e, he⟩
    · obtain rfl := eq_of_integerValue h
      exact ⟨none, none, rfl⟩

/-- The bytes of a number that was read, behind its minus sign. -/
theorem exists_numeral (h : readNumber negative bs = .ok (w, rest)) :
    ∃ n : Numeral, n.negative = negative ∧ bs = n.unsigned ++ rest := by
  have hnumeral : ∀ (integer : Digits) (more : Bytes) (significand dropped : Nat),
      (integer.1.head? = some Byte.zero → integer.1 = [Byte.zero]) →
      readAfterInteger negative significand dropped more = .ok (w, rest) →
      ∃ n : Numeral, n.negative = negative ∧ integer.1 ++ more = n.unsigned ++ rest := by
    intro integer more significand dropped hunpadded hmore
    obtain ⟨f, e, rfl⟩ := exists_afterInteger hmore
    refine ⟨⟨negative, integer, hunpadded, f, e⟩, rfl, ?_⟩
    simp only [Numeral.unsigned, Numeral.tail, List.append_assoc]
  cases bs with
  | nil => cases h
  | cons b bs =>
    rw [readNumber.eq_def] at h
    dsimp only at h
    split at h
    · next hzero =>
      have hb : ∀ c ∈ [b], Byte.isDigit c = true := by
        rw [hzero]
        exact List.forall_mem_singleton.mpr rfl
      have hunpadded : [b].head? = some Byte.zero → [b] = [Byte.zero] := fun _ => by rw [hzero]
      split at h
      · exact hnumeral ⟨[b], List.cons_ne_nil _ _, hb⟩ [] 0 0 hunpadded h
      · split at h
        · cases h
        · exact hnumeral ⟨[b], List.cons_ne_nil _ _, hb⟩ _ 0 0 hunpadded h
    · next hzero =>
      split at h
      · next hdigit =>
        obtain ⟨ds, hds, hbs, -⟩ := exists_digitRun (Byte.digitValue b) bs
        have hall : ∀ c ∈ b :: ds, Byte.isDigit c = true :=
          List.forall_mem_cons.mpr ⟨hdigit, hds⟩
        have hread := hnumeral ⟨b :: ds, List.cons_ne_nil _ _, hall⟩ _ _ _
          (fun hhead => absurd (Option.some_inj.mp hhead) hzero) h
        rwa [List.cons_append, ← hbs] at hread
      · cases h

/-! ## Steps -/

theorem eq_of_readLiteral {es bs rest : Bytes} {u : Unit} (h : readLiteral es bs = .ok (u, rest)) :
    bs = es ++ rest := by
  induction es generalizing bs with
  | nil => exact (Prod.mk.inj (Except.ok.inj h)).2
  | cons e es ih =>
    cases bs with
    | nil => cases h
    | cons b bs =>
      rw [readLiteral] at h
      split at h
      · next hb => rw [hb, ih h, List.cons_append]
      · cases h

theorem exists_colon {bs rest : Bytes} {u : Unit} (h : readColon bs = .ok (u, rest)) :
    ∃ blanks : Blanks, bs = blanks.1 ++ Byte.colon :: rest := by
  obtain ⟨blanks, hblanks⟩ := exists_blanks bs
  unfold readColon at h
  split at h
  · cases h
  · next b more hskip =>
    split at h
    · next hb =>
      obtain ⟨-, rfl⟩ := Prod.mk.inj (Except.ok.inj h)
      exact ⟨blanks, by rw [hskip, hb] at hblanks; exact hblanks⟩
    · cases h

/-- The end of a container stands behind blanks, and an item behind a comma unless it is the
first. -/
theorem exists_nextItem {first : Bool} {bs : Bytes} {next : Next}
    (h : nextItem first bs = .ok next) :
    match next with
    | .finished rest => ∃ blanks : Blanks, bs = blanks.1 ++ Byte.closeBracket :: rest
    | .item bytes => ∃ blanks before : Blanks,
        bs = blanks.1 ++ ((if first then [] else [Byte.comma]) ++ (before.1 ++ bytes)) := by
  obtain ⟨blanks, hblanks⟩ := exists_blanks bs
  unfold nextItem at h
  split at h
  · cases h
  · next b more hskip =>
    rw [hskip] at hblanks
    split at h
    · next hb =>
      cases h
      exact ⟨blanks, hb ▸ hblanks⟩
    split at h
    · next hfirst =>
      cases h
      exact ⟨blanks, noBlanks, by rw [if_pos hfirst]; exact hblanks⟩
    · next hfirst =>
      split at h
      · next hb =>
        obtain ⟨before, hbefore⟩ := exists_blanks more
        split at h
        · cases h
        · next c left hskip' =>
          split at h
          · cases h
          · cases h
            refine ⟨blanks, before, ?_⟩
            rw [if_neg hfirst, hblanks, hb, List.singleton_append, ← hskip', ← hbefore]
      · cases h

theorem exists_nextMember {first : Bool} {bs : Bytes} {next : Next}
    (h : nextMember first bs = .ok next) :
    match next with
    | .finished rest => ∃ blanks : Blanks, bs = blanks.1 ++ Byte.closeBrace :: rest
    | .item bytes => ∃ blanks before : Blanks, bs = blanks.1 ++
        ((if first then [] else [Byte.comma]) ++ (before.1 ++ Byte.quote :: bytes)) := by
  obtain ⟨blanks, hblanks⟩ := exists_blanks bs
  unfold nextMember at h
  split at h
  · cases h
  · next b more hskip =>
    rw [hskip] at hblanks
    split at h
    · next hb =>
      cases h
      exact ⟨blanks, hb ▸ hblanks⟩
    split at h
    · next hfirst =>
      split at h
      · next hb =>
        cases h
        exact ⟨blanks, noBlanks, by rw [if_pos hfirst]; exact hb ▸ hblanks⟩
      · cases h
    · next hfirst =>
      split at h
      · next hb =>
        obtain ⟨before, hbefore⟩ := exists_blanks more
        split at h
        · cases h
        · next c left hskip' =>
          split at h
          · next hc =>
            cases h
            refine ⟨blanks, before, ?_⟩
            rw [if_neg hfirst, hblanks, hb, List.singleton_append, ← hc, ← hskip', ← hbefore]
          split at h <;> cases h
      · cases h

/-! ## Containers -/

/-- A reader takes texts of spellings alone, with blanks in front of them. -/
def SpellsOnly (read : Reader Json) : Prop :=
  ∀ ⦃bs rest : Bytes⦄ ⦃w : Json⦄, read bs = .ok (w, rest) →
    ∃ (blanks : Blanks) (v : Spelling), bs = blanks.1 ++ (v.text ++ rest)

section

variable {read : Reader Json} (hread : SpellsOnly read)
include hread

/-- The bytes of the items of a list that were read. -/
theorem exists_items {first : Bool} {fuel : Nat} {bs rest : Bytes} {ws : List Json}
    (h : readItems read first fuel bs = .ok (ws, rest)) :
    ∃ (blanks : Blanks) (items : Items),
      bs = blanks.1 ++ (Spelling.itemsText first items ++ rest) := by
  induction fuel generalizing first bs ws with
  | zero => cases h
  | succ fuel ih =>
    rw [readItems] at h
    obtain ⟨next, hnext, h⟩ := ok_of_bind h
    have hstep := exists_nextItem hnext
    cases next with
    | finished left =>
      obtain ⟨blanks, hbs⟩ := hstep
      obtain ⟨-, rfl⟩ := Prod.mk.inj (Except.ok.inj h)
      exact ⟨blanks, [], hbs⟩
    | item bytes =>
      obtain ⟨blanks, before, hbs⟩ := hstep
      obtain ⟨⟨w, left⟩, hw, h⟩ := ok_of_bind h
      obtain ⟨⟨more, last⟩, hmore, h⟩ := ok_of_bind h
      obtain ⟨-, rfl⟩ := Prod.mk.inj (Except.ok.inj h)
      obtain ⟨inside, v, hv⟩ := hread hw
      obtain ⟨after, items, hitems⟩ := ih hmore
      refine ⟨blanks, ⟨before.append inside, v, after⟩ :: items, ?_⟩
      rw [itemsText_cons, hbs, hv, hitems]
      simp only [Blanks.append, List.append_assoc]

/-- The bytes of the members of an object that were read. -/
theorem exists_members {first : Bool} {fuel : Nat} {bs rest : Bytes} {ws : List (String × Json)}
    (h : readMembers read first fuel bs = .ok (ws, rest)) :
    ∃ (blanks : Blanks) (members : Members),
      bs = blanks.1 ++ (Spelling.membersText first members ++ rest) := by
  induction fuel generalizing first bs ws with
  | zero => cases h
  | succ fuel ih =>
    rw [readMembers] at h
    obtain ⟨next, hnext, h⟩ := ok_of_bind h
    have hstep := exists_nextMember hnext
    cases next with
    | finished left =>
      obtain ⟨blanks, hbs⟩ := hstep
      obtain ⟨-, rfl⟩ := Prod.mk.inj (Except.ok.inj h)
      exact ⟨blanks, [], hbs⟩
    | item bytes =>
      obtain ⟨blanks, before, hbs⟩ := hstep
      obtain ⟨⟨key, behindKey⟩, hkey, h⟩ := ok_of_bind h
      obtain ⟨⟨_, behindColon⟩, hcolon, h⟩ := ok_of_bind h
      obtain ⟨⟨w, left⟩, hw, h⟩ := ok_of_bind h
      obtain ⟨⟨more, last⟩, hmore, h⟩ := ok_of_bind h
      obtain ⟨-, rfl⟩ := Prod.mk.inj (Except.ok.inj h)
      obtain ⟨s, hs⟩ := exists_pieces hkey
      obtain ⟨behind, hbehind⟩ := exists_colon hcolon
      obtain ⟨inside, v, hv⟩ := hread hw
      obtain ⟨after, members, hmembers⟩ := ih hmore
      refine ⟨blanks, (⟨before, s, behind⟩, ⟨inside, v, after⟩) :: members, ?_⟩
      rw [membersText_cons, hbs, hs, hbehind, hv, hmembers]

end

/-! ## Values -/

/-- The bytes of a value that is no container. -/
theorem exists_scalar {bs rest : Bytes} {w : Json} (h : readScalar? bs = some (.ok (w, rest))) :
    ∃ v : Spelling, bs = v.text ++ rest := by
  cases readsScalar_of_readScalar? h with
  | null hread => exact ⟨.null, by rw [eq_of_readLiteral hread]; rfl⟩
  | true hread => exact ⟨.bool true, by rw [eq_of_readLiteral hread]; rfl⟩
  | false hread => exact ⟨.bool false, by rw [eq_of_readLiteral hread]; rfl⟩
  | negative hread =>
    obtain ⟨n, hnegative, hn⟩ := exists_numeral hread
    refine ⟨.number n, ?_⟩
    rw [Spelling.text, Numeral.text, if_pos hnegative, hn, List.cons_append]
  | number hread =>
    obtain ⟨n, hnegative, hn⟩ := exists_numeral hread
    refine ⟨.number n, ?_⟩
    rw [Spelling.text, Numeral.text, if_neg (by simp [hnegative]), hn]
  | str hread =>
    obtain ⟨s, hs⟩ := exists_pieces hread
    exact ⟨.str s, by simp [Spelling.text, quoted, hs]⟩

theorem spellsOnly_readNode (inner? : Option (Reader Json))
    (hinner : ∀ inner ∈ inner?, SpellsOnly inner) : SpellsOnly (readNode readObject inner?) := by
  intro bs rest w h
  obtain ⟨blanks, hblanks⟩ := exists_blanks bs
  unfold readNode at h
  split at h
  · cases h
  next b more hskip =>
  rw [hskip] at hblanks
  split at h
  · next result hscalar =>
    obtain ⟨v, hv⟩ := exists_scalar (hscalar.trans (congrArg some h))
    exact ⟨blanks, v, by rw [hblanks, hv]⟩
  split at h
  · next hb =>
    split at h
    · cases h
    · next inner =>
      obtain ⟨⟨items, last⟩, hitems, h⟩ := ok_of_bind h
      obtain ⟨-, rfl⟩ := Prod.mk.inj (Except.ok.inj h)
      obtain ⟨inside, parts, rfl⟩ := exists_items (hinner inner rfl) hitems
      refine ⟨blanks, .arr inside parts, ?_⟩
      rw [hblanks, hb, Spelling.text, List.cons_append, List.append_assoc]
  split at h
  · next hb =>
    split at h
    · cases h
    · next inner =>
      obtain ⟨⟨members, last⟩, hmembers, h⟩ := ok_of_bind h
      obtain ⟨-, rfl⟩ := Prod.mk.inj (Except.ok.inj h)
      obtain ⟨inside, parts, rfl⟩ := exists_members (hinner inner rfl) hmembers
      refine ⟨blanks, .obj inside parts, ?_⟩
      rw [hblanks, hb, Spelling.text, List.cons_append, List.append_assoc]
  · cases h

/-- **Only spellings are read**, however deep they may be nested. -/
theorem spellsOnly_readValue (d : Nat) : SpellsOnly (readValue d) := by
  induction d with
  | zero => exact spellsOnly_readNode none (by simp)
  | succ d ih =>
    refine spellsOnly_readNode (some (readValue d)) ?_
    rintro _ ⟨⟩
    exact ih

/-! ## Texts -/

/-- **The texts of JSON are the spellings within the limits whose surrogates are paired**, and each
is read as what it stands for. -/
theorem parse_eq_ok_iff {bs : Bytes} {w : Json} :
    parse bs = .ok w ↔ ∃ t : Spaced Spelling, bs = t.text ∧ limited? maxDepth t.inner = some w := by
  constructor
  · intro h
    obtain ⟨⟨w', rest⟩, hvalue, hend⟩ := ok_of_bind h
    obtain ⟨_, hrest, -⟩ := ok_of_bind hend
    obtain ⟨blanks, v, hbs⟩ := spellsOnly_readValue maxDepth hvalue
    obtain ⟨after, hafter⟩ := exists_blanks rest
    unfold readEnd at hrest
    split at hrest
    · next hskip =>
      rw [hskip, List.append_nil] at hafter
      have htext : bs = Spaced.text ⟨blanks, v, after⟩ := by rw [hbs, hafter, Spaced.text]
      refine ⟨⟨blanks, v, after⟩, htext, ?_⟩
      rw [← toOption_parse_text, ← htext, h]
      rfl
    · cases hrest
  · rintro ⟨t, rfl, hvalue⟩
    rw [← toOption_parse_text] at hvalue
    cases hparse : parse t.text with
    | error fault =>
      rw [hparse] at hvalue
      cases hvalue
    | ok w' =>
      rw [hparse] at hvalue
      exact congrArg Except.ok (Option.some_inj.mp hvalue)

end Invigilation.Json
