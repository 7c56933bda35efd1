import Invigilation.Proofs.Json.Spelling
import Invigilation.Proofs.Json.Values

/-!
# Reading the spellings of numbers

A number is read as its value, and refused when it has none, provided that what follows cannot be
taken for more of it.

- `EndsDigits`: the bytes that may follow a run of digits.
- `readDigitRun_append`, `readExponentDigits_append`: the digits of a run are taken to their end.
- `toOption_readNumber`: **a number is read as its value**.
-/

namespace Invigilation.Json

open Text (Bytes)

/-! ## Digits -/

/-- Bytes that do not continue a run of digits. -/
def EndsDigits (rest : Bytes) : Prop :=
  ∀ b ∈ rest.head?, Byte.isDigit b = false

theorem EndsNumber.endsDigits {rest : Bytes} (h : EndsNumber rest) : EndsDigits rest :=
  fun b hb => (h b hb).1

/-- A number may stand at the end of a text. -/
theorem endsNumber_nil : EndsNumber [] := by
  simp [EndsNumber]

theorem takeWhile_digits {bs rest : Bytes} (hbs : ∀ b ∈ bs, Byte.isDigit b = true)
    (hrest : EndsDigits rest) :
    (bs ++ rest).takeWhile Byte.isDigit = bs ∧ (bs ++ rest).dropWhile Byte.isDigit = rest := by
  rw [List.takeWhile_append_of_pos hbs, List.dropWhile_append_of_pos hbs]
  cases rest with
  | nil => simp
  | cons b rest =>
    have hb := hrest b rfl
    simp [hb]

/-- A run of digits ends with its last digit. -/
theorem readDigitRun_append {bs rest : Bytes} (hbs : ∀ b ∈ bs, Byte.isDigit b = true)
    (hrest : EndsDigits rest) (s : Nat) :
    readDigitRun s (bs ++ rest) = { readDigitRun s bs with rest } := by
  induction bs generalizing s with
  | nil =>
    cases rest with
    | nil => rfl
    | cons b rest =>
      show readDigitRun s (b :: rest) = ⟨s, 0, 0, b :: rest⟩
      rw [readDigitRun, if_neg (by simp [hrest b rfl])]
  | cons b bs ih =>
    obtain ⟨hb, hbs⟩ := List.forall_mem_cons.mp hbs
    rw [List.cons_append, readDigitRun, readDigitRun, if_pos hb, if_pos hb]
    by_cases hfits : s * 10 + Byte.digitValue b < unsignedBound
    · rw [if_pos hfits, if_pos hfits, ih hbs]
    -- the first digit that does not fit drops all others
    · rw [if_neg hfits, if_neg hfits]
      obtain ⟨htake, hdrop⟩ := takeWhile_digits hbs hrest
      obtain ⟨htake', -⟩ := takeWhile_digits hbs endsNumber_nil.endsDigits
      rw [List.append_nil] at htake'
      rw [htake, hdrop, htake']

/-- A digit is taken in or dropped. -/
theorem readDigitRun_ne {bs : Bytes} (hne : bs ≠ []) (hbs : ∀ b ∈ bs, Byte.isDigit b = true)
    (s : Nat) : ¬ ((readDigitRun s bs).kept = 0 ∧ (readDigitRun s bs).dropped = 0) := by
  cases bs with
  | nil => exact absurd rfl hne
  | cons b bs =>
    rw [readDigitRun, if_pos (hbs b List.mem_cons_self)]
    split
    · simp
    · simp

/-- The digits of an exponent are taken to their end, or until they are too many. -/
theorem readExponentDigits_append {bs rest : Bytes} (hbs : ∀ b ∈ bs, Byte.isDigit b = true)
    (hrest : EndsDigits rest) (n : Nat) :
    (∃ m, (readExponentDigits n bs).1 = some m ∧
      readExponentDigits n (bs ++ rest) = (some m, rest)) ∨
    ((readExponentDigits n bs).1 = none ∧
      ∃ more, readExponentDigits n (bs ++ rest) = (none, more) ∧
        more.dropWhile Byte.isDigit = rest) := by
  induction bs generalizing n with
  | nil =>
    left
    refine ⟨n, rfl, ?_⟩
    cases rest with
    | nil => rfl
    | cons b rest =>
      rw [List.nil_append, readExponentDigits, if_neg (by simp [hrest b rfl])]
  | cons b bs ih =>
    obtain ⟨hb, hbs⟩ := List.forall_mem_cons.mp hbs
    rw [List.cons_append, readExponentDigits, readExponentDigits, if_pos hb, if_pos hb]
    by_cases hfits : n * 10 + Byte.digitValue b ≤ maxWrittenExponent
    · rw [if_pos hfits, if_pos hfits]
      exact ih hbs _
    · rw [if_neg hfits, if_neg hfits]
      exact .inr ⟨rfl, _, rfl, (takeWhile_digits hbs hrest).2⟩

/-! ## The parts of a number -/

variable {negative : Bool} {significand kept dropped : Nat} {power : Int} {rest last : Bytes}

theorem toOption_scaled (negative : Bool) (significand : Nat) (power : Int) (rest : Bytes) :
    (scaled negative significand power rest).toOption =
      (Numeral.double? negative significand power).map (·, rest) := by
  unfold scaled Numeral.double?
  cases Binary64.scaleTen? significand power <;> rfl

theorem toOption_integerValue (negative : Bool) (significand dropped : Nat) (rest : Bytes) :
    (integerValue negative significand dropped rest).toOption =
      (Numeral.whole? negative significand dropped).map (·, rest) := by
  unfold integerValue Numeral.whole?
  split
  · exact toOption_scaled _ _ _ _
  split
  · rfl
  split
  · rfl
  · exact toOption_scaled _ _ _ _

theorem readExponentDigits_cons {b : UInt8} (hb : Byte.isDigit b = true) (bs : Bytes) :
    readExponentDigits 0 (b :: bs) = readExponentDigits (Byte.digitValue b) bs := by
  have hsmall : Byte.digitValue b ≤ maxWrittenExponent :=
    Nat.le_trans (Nat.sub_le _ _) (Nat.le_trans (Nat.le_of_lt b.toNat_lt) (by decide))
  rw [readExponentDigits, if_pos hb, Nat.zero_mul, Nat.zero_add, if_pos hsmall]

/-- The digits of an exponent behind its sign. -/
theorem toOption_readExponentFrom (e : Exponent) (hrest : EndsDigits rest) :
    (readExponentFrom negative significand power (e.sign = some .minus)
      (e.digits.1 ++ rest)).toOption =
        (Numeral.raised? negative significand power e).map (·, rest) := by
  obtain ⟨letter, hletter, sign, bs, hne, hbs⟩ := e
  unfold Numeral.raised?
  dsimp only
  have hread := readExponentDigits_append hbs hrest 0
  cases bs with
  | nil => exact absurd rfl hne
  | cons b bs =>
    have hb := hbs b List.mem_cons_self
    rw [List.cons_append] at hread ⊢
    rw [readExponentFrom, if_pos hb, ← readExponentDigits_cons hb]
    obtain ⟨m, hvalue, hall⟩ | ⟨hvalue, more, hall, hmore⟩ := hread
    · rw [hvalue, hall]
      dsimp only
      rw [toOption_scaled]
      by_cases hminus : sign = some .minus <;> simp [hminus]
    · rw [hvalue, hall]
      dsimp only
      rw [hmore]
      by_cases hlarge : significand ≠ 0 ∧ sign ≠ some .minus
      · rw [if_pos hlarge, if_pos (by simpa using hlarge)]
        rfl
      · rw [if_neg hlarge, if_neg (by simpa using hlarge)]
        rfl

theorem ne_of_isDigit {b c : UInt8} (hb : Byte.isDigit b = true) (hc : Byte.isDigit c = false) :
    b ≠ c := by
  rintro rfl
  simp [hb] at hc

/-- An exponent behind its letter. -/
theorem toOption_readExponent (e : Exponent) (hrest : EndsDigits rest) :
    (readExponent negative significand power
      (e.sign.toList.map Sign.byte ++ (e.digits.1 ++ rest))).toOption =
        (Numeral.raised? negative significand power e).map (·, rest) := by
  have hfrom : (readExponentFrom negative significand power (e.sign = some .minus)
      (e.digits.1 ++ rest)).toOption =
        (Numeral.raised? negative significand power e).map (·, rest) :=
    toOption_readExponentFrom e hrest
  obtain ⟨letter, hletter, sign, bs, hne, hbs⟩ := e
  cases sign with
  | some sign => cases sign <;> exact hfrom
  | none =>
    cases bs with
    | nil => exact absurd rfl hne
    | cons b bs =>
      have hb := hbs b List.mem_cons_self
      show (readExponent negative significand power (b :: (bs ++ rest))).toOption = _
      rw [readExponent, if_neg (ne_of_isDigit hb rfl), if_neg (ne_of_isDigit hb rfl)]
      exact hfrom

/-- An exponent behind the digits of a number. -/
theorem exponent_text (e : Exponent) (rest : Bytes) :
    e.text ++ rest = e.letter :: (e.sign.toList.map Sign.byte ++ (e.digits.1 ++ rest)) := by
  rw [Exponent.text, List.cons_append, List.append_assoc]

theorem not_isDigit_letter {b : UInt8} (h : isExponentLetter b = true) :
    Byte.isDigit b = false ∧ b ≠ Byte.point := by
  simp only [isExponentLetter, Bool.or_eq_true, beq_iff_eq] at h
  rcases h with rfl | rfl <;> decide

/-- What stands behind the digits of a number does not start with a digit. -/
theorem endsDigits_exponent (e : Option Exponent) (hrest : EndsDigits rest) :
    EndsDigits (e.elim [] Exponent.text ++ rest) := by
  cases e with
  | none => exact hrest
  | some e =>
    rintro b hb
    obtain rfl : e.letter = b := Option.some_inj.mp hb
    exact (not_isDigit_letter e.isLetter).1

theorem endsDigits_tail (n : Numeral) (hrest : EndsDigits rest) :
    EndsDigits (n.tail ++ rest) := by
  unfold Numeral.tail
  cases n.fraction with
  | none => exact endsDigits_exponent n.exponent hrest
  | some f =>
    rintro b hb
    obtain rfl : Byte.point = b := Option.some_inj.mp hb
    rfl

/-- A fraction, and an exponent if there is one, behind the point. -/
theorem toOption_readFraction (f : Digits) (e : Option Exponent) (hrest : EndsNumber rest) :
    (readFraction negative significand power
      (f.1 ++ (e.elim [] Exponent.text ++ rest))).toOption =
        (Numeral.scaled? negative (readDigitRun significand f.1).significand
          (power - (readDigitRun significand f.1).kept) e).map (·, rest) := by
  obtain ⟨bs, hne, hbs⟩ := f
  have hrun := readDigitRun_append hbs (endsDigits_exponent e hrest.endsDigits) significand
  unfold readFraction
  dsimp only
  rw [hrun]
  dsimp only
  rw [if_neg (readDigitRun_ne hne hbs significand)]
  cases e with
  | some e =>
    rw [Option.elim_some, exponent_text]
    dsimp only
    rw [if_pos e.isLetter]
    exact toOption_readExponent e hrest.endsDigits
  | none =>
    rw [Option.elim_none, List.nil_append]
    cases rest with
    | nil => exact toOption_scaled _ _ _ _
    | cons b rest =>
      dsimp only
      rw [if_neg (by simp [(hrest b rfl).2.2])]
      exact toOption_scaled _ _ _ _

/-- What follows the integer digits of a number. -/
theorem toOption_readAfterInteger (n : Numeral) (hrest : EndsNumber rest)
    (hwhole : readDigitRun 0 n.integer.1 = ⟨significand, kept, dropped, last⟩) :
    (readAfterInteger n.negative significand dropped (n.tail ++ rest)).toOption =
      n.value?.map (·, rest) := by
  obtain ⟨negative, integer, unpadded, fraction, exponent⟩ := n
  unfold Numeral.value? Numeral.tail
  dsimp only
  rw [hwhole]
  cases fraction with
  | some f =>
    rw [Option.elim_some, List.cons_append, List.cons_append, List.append_assoc, readAfterInteger,
      if_pos rfl]
    exact toOption_readFraction f exponent hrest
  | none =>
    rw [Option.elim_none, List.nil_append]
    cases exponent with
    | some e =>
      rw [Option.elim_some, exponent_text, readAfterInteger,
        if_neg (not_isDigit_letter e.isLetter).2, if_pos e.isLetter]
      exact toOption_readExponent e hrest.endsDigits
    | none =>
      rw [Option.elim_none, List.nil_append]
      have hend : readAfterInteger negative significand dropped rest =
          integerValue negative significand dropped rest := by
        cases rest with
        | nil => rfl
        | cons b rest =>
          obtain ⟨-, hpoint, hletter⟩ := hrest b rfl
          rw [readAfterInteger, if_neg hpoint, if_neg (by simp [hletter])]
      rw [hend]
      exact toOption_integerValue _ _ _ _

/-- **A number is read as its value**, from behind its minus sign. -/
theorem toOption_readNumber (n : Numeral) (hrest : EndsNumber rest) :
    (readNumber n.negative (n.unsigned ++ rest)).toOption = n.value?.map (·, rest) := by
  have hafter := fun {significand kept dropped last}
      (h : readDigitRun 0 n.integer.1 = ⟨significand, kept, dropped, last⟩) =>
    toOption_readAfterInteger n hrest h
  have htail := endsDigits_tail n hrest.endsDigits
  unfold Numeral.unsigned
  rw [List.append_assoc]
  -- from here on only the integer digits count
  generalize hmore : n.tail ++ rest = more at hafter htail ⊢
  have hunpadded := n.unpadded
  obtain ⟨hne, hdigits⟩ := n.integer.2
  generalize n.integer.1 = bs at hafter hunpadded hne hdigits ⊢
  cases bs with
  | nil => exact absurd rfl hne
  | cons b bs =>
    obtain ⟨hb, hbs⟩ := List.forall_mem_cons.mp hdigits
    by_cases hzero : b = Byte.zero
    -- a zero in front is the only digit
    · subst hzero
      obtain rfl : bs = [] := (List.cons_eq_cons.mp (hunpadded rfl)).2
      show (readNumber n.negative (Byte.zero :: more)).toOption = _
      have hone : readDigitRun 0 [Byte.zero] = ⟨0, 1, 0, []⟩ := rfl
      rw [← hafter hone]
      cases more with
      | nil => rfl
      | cons c more => rw [readNumber, if_pos rfl, if_neg (by simp [htail c rfl])]
    · have hfirst : readDigitRun 0 (b :: bs) =
          { readDigitRun (Byte.digitValue b) bs with
            kept := (readDigitRun (Byte.digitValue b) bs).kept + 1 } := by
        have hfits : Byte.digitValue b < unsignedBound :=
          Nat.lt_of_le_of_lt (Nat.sub_le _ _) (Nat.lt_trans b.toNat_lt (by decide))
        rw [readDigitRun, if_pos hb, Nat.zero_mul, Nat.zero_add, if_pos hfits]
      rw [← hafter hfirst, List.cons_append, readNumber.eq_def]
      dsimp only
      rw [if_neg hzero, if_pos hb, readDigitRun_append hbs htail]

end Invigilation.Json
