import Invigilation.Text.Numeral

/-!
# The texts of unsigned numbers

A text is read as a number exactly if it is a numeral of it and the number has 64 bits. Reading
stops at the first digit that is too much, but digits never make a number smaller.

- `Denote`: digits and the number that they denote.
- `IsNumeral`: a text and the number that it is a numeral of.
- `readDigits_eq_ok_iff`: digits behind others.
- `readUnsigned_eq_ok_iff`: **which texts are read, and as which numbers**.
-/

namespace Invigilation.Text

/-- One or more ASCII digits denote a number. -/
structure Denote (digits : List Char) (n : Nat) : Prop where
  nonempty : digits ≠ []
  isDigit : ∀ c ∈ digits, c.isDigit = true
  value : Nat.ofDigitChars 10 digits 0 = n

/-- A text is a numeral of a number: digits, or a `+` and digits. -/
def IsNumeral (s : String) (n : Nat) : Prop :=
  ∃ sign digits, s.toList = sign ++ digits ∧ (sign = [] ∨ sign = ['+']) ∧ Denote digits n

/-! ## Digits -/

theorem digit?_of_isDigit {c : Char} (h : c.isDigit = true) :
    digit? c = some (c.toNat - '0'.toNat) := by
  rw [Char.isDigit, Bool.and_eq_true, decide_eq_true_iff, decide_eq_true_iff] at h
  exact if_pos h

theorem digit?_of_not_isDigit {c : Char} (h : ¬ c.isDigit = true) : digit? c = none := by
  rw [Char.isDigit, Bool.and_eq_true, decide_eq_true_iff, decide_eq_true_iff] at h
  exact if_neg h

theorem le_ofDigitChars (digits : List Char) (n : Nat) : n ≤ Nat.ofDigitChars 10 digits n := by
  induction digits generalizing n with
  | nil => exact Nat.le_refl n
  | cons c digits ih =>
    rw [Nat.ofDigitChars_cons]
    have hrest := ih (10 * n + (c.toNat - '0'.toNat))
    omega

/-- Digits are read behind digits of value `n` if the number of them all fits. -/
theorem readDigits_eq_ok_iff {digits : List Char} {n m : Nat} (hn : n < unsignedBound) :
    readDigits n digits = .ok m ↔
      (∀ c ∈ digits, c.isDigit = true) ∧ Nat.ofDigitChars 10 digits n = m ∧ m < unsignedBound := by
  induction digits generalizing n with
  | nil =>
    rw [readDigits, Except.ok.injEq]
    constructor
    · rintro rfl
      exact ⟨List.forall_mem_nil _, rfl, hn⟩
    · exact fun h => h.2.1
  | cons c digits ih =>
    rw [List.forall_mem_cons, Nat.ofDigitChars_cons, readDigits]
    by_cases hc : c.isDigit = true
    · rw [digit?_of_isDigit hc, Nat.mul_comm 10 n]
      dsimp only
      by_cases hfits : n * 10 + (c.toNat - '0'.toNat) < unsignedBound
      · rw [if_pos hfits, ih hfits]
        exact ⟨fun h => ⟨⟨hc, h.1⟩, h.2⟩, fun h => ⟨h.1.2, h.2⟩⟩
      · rw [if_neg hfits]
        refine iff_of_false (fun h => by cases h) ?_
        rintro ⟨-, rfl, hm⟩
        -- what follows does not make it smaller
        have hrest := le_ofDigitChars digits (n * 10 + (c.toNat - '0'.toNat))
        omega
    · rw [digit?_of_not_isDigit hc]
      exact iff_of_false (fun h => by cases h) fun h => hc h.1.1

theorem readDigits_zero_eq_ok_iff {digits : List Char} (h : digits ≠ []) {n : Nat} :
    readDigits 0 digits = .ok n ↔ Denote digits n ∧ n < unsignedBound := by
  rw [readDigits_eq_ok_iff (by decide)]
  constructor
  · rintro ⟨hdigits, hvalue, hn⟩
    exact ⟨⟨h, hdigits, hvalue⟩, hn⟩
  · rintro ⟨hdenote, hn⟩
    exact ⟨hdenote.isDigit, hdenote.value, hn⟩

/-! ## Numerals -/

/-- Behind a `+` only digits are left. -/
theorem isNumeral_of_plus {s : String} {cs : List Char} (hs : s.toList = '+' :: cs) {n : Nat} :
    IsNumeral s n ↔ Denote cs n := by
  constructor
  · rintro ⟨sign, digits, htext, rfl | rfl, hdenote⟩
    · obtain rfl : digits = '+' :: cs := htext.symm.trans hs
      exact absurd (hdenote.isDigit _ List.mem_cons_self) (by decide)
    · obtain ⟨-, rfl⟩ := List.cons_eq_cons.mp (htext.symm.trans hs)
      exact hdenote
  · exact fun h => ⟨['+'], cs, hs, .inr rfl, h⟩

theorem isNumeral_of_not_plus {s : String} (hs : ∀ cs, s.toList ≠ '+' :: cs) {n : Nat} :
    IsNumeral s n ↔ Denote s.toList n := by
  constructor
  · rintro ⟨sign, digits, htext, rfl | rfl, hdenote⟩
    · rwa [htext]
    · exact absurd htext (hs digits)
  · exact fun h => ⟨[], s.toList, rfl, .inl rfl, h⟩

/-- **A text is read as a number exactly if it is a numeral of it and the number has 64 bits.** -/
theorem readUnsigned_eq_ok_iff {s : String} {n : Nat} :
    readUnsigned s = .ok n ↔ IsNumeral s n ∧ n < unsignedBound := by
  unfold readUnsigned
  split
  · next hs =>
    refine iff_of_false (fun h => by cases h) fun h => ?_
    have hdenote := (isNumeral_of_not_plus (by simp [hs])).mp h.1
    exact hdenote.nonempty hs
  · next hs =>
    refine iff_of_false (fun h => by cases h) fun h => ?_
    exact ((isNumeral_of_plus hs).mp h.1).nonempty rfl
  · next cs hne hs =>
    rw [isNumeral_of_plus hs, readDigits_zero_eq_ok_iff fun hnil => hne (by rw [hnil])]
  · next hnil hne hplus =>
    rw [isNumeral_of_not_plus hplus, readDigits_zero_eq_ok_iff hnil]

end Invigilation.Text
