import Invigilation.Proofs.Json.Every
import Invigilation.Proofs.Json.Strings

/-!
# Integers of JSON there and back

An integer of 64 bits is printed in decimal and read back as itself, provided that what follows
cannot be taken for more of the number.

- `EndsNumber`: the bytes that may follow a number.
- `readDigitRun_chars`: a run of digits is read as the number that it denotes.
- `readNumber_renderInt`: **reading undoes printing**.
-/

namespace Invigilation.Json

open Text (Bytes)
open Text.Utf8 (encode)

/-- Bytes that do not continue a number. -/
def EndsNumber (rest : Bytes) : Prop :=
  ∀ b ∈ rest.head?, Byte.isDigit b = false ∧ b ≠ Byte.point ∧ isExponentLetter b = false

/-! ## Digits -/

/-- The byte of a digit is a digit, and has its value. -/
theorem isDigit_byte {c : Char} (h : c.isDigit = true) :
    c.toNat < 0x80 ∧ Byte.isDigit (UInt8.ofNat c.toNat) = true ∧
      Byte.digitValue (UInt8.ofNat c.toNat) = c.toNat - '0'.toNat := by
  have hrange : 0x30 ≤ c.toNat ∧ c.toNat ≤ 0x39 := by
    simpa [Char.isDigit, UInt32.le_iff_toNat_le] using h
  have hbyte : (UInt8.ofNat c.toNat).toNat = c.toNat := Text.Utf8.toNat_byte (by omega)
  refine ⟨by omega, ?_, ?_⟩
  · simp only [Byte.isDigit, Bool.and_eq_true, decide_eq_true_eq, UInt8.le_iff_toNat_le, hbyte]
    exact hrange
  · rw [Byte.digitValue, hbyte]
    rfl

theorem le_ofDigitChars (cs : List Char) (s : Nat) : s ≤ Nat.ofDigitChars 10 cs s := by
  rw [Nat.ofDigitChars_eq_ofDigitChars_zero]
  exact Nat.le_add_right_of_le (Nat.le_mul_of_pos_left s (Nat.pow_pos (by decide)))

/-- A run of digits is taken in whole when its number fits. -/
theorem readDigitRun_chars {cs : List Char} (hdigits : ∀ c ∈ cs, c.isDigit = true) (s : Nat)
    (hfits : Nat.ofDigitChars 10 cs s < unsignedBound) {rest : Bytes} (hrest : EndsNumber rest) :
    readDigitRun s (encode cs ++ rest) = ⟨Nat.ofDigitChars 10 cs s, cs.length, 0, rest⟩ := by
  induction cs generalizing s with
  | nil =>
    show readDigitRun s rest = ⟨s, 0, 0, rest⟩
    cases rest with
    | nil => rfl
    | cons b bs =>
      obtain ⟨hb, -, -⟩ := hrest b rfl
      rw [readDigitRun, if_neg (by simp [hb])]
  | cons c cs ih =>
    obtain ⟨hascii, hdigit, hvalue⟩ := isDigit_byte (hdigits c List.mem_cons_self)
    rw [Nat.ofDigitChars_cons, Nat.mul_comm] at hfits ⊢
    have hle := le_ofDigitChars cs (s * 10 + (c.toNat - '0'.toNat))
    rw [encode_cons_of_lt hascii, List.cons_append, readDigitRun, if_pos hdigit, hvalue,
      if_pos (Nat.lt_of_le_of_lt hle hfits),
      ih (fun d hd => hdigits d (List.mem_cons_of_mem c hd)) _ hfits]
    rfl

/-- The first digit of a positive number is not zero. -/
theorem head_toDigits {n : Nat} (h : 0 < n) : ∃ c cs, Nat.toDigits 10 n = c :: cs ∧ c ≠ '0' := by
  induction n using Nat.strong_induction_on with
  | _ n ih =>
    by_cases hsmall : n < 10
    · refine ⟨_, [], Nat.toDigits_of_lt_base hsmall, ?_⟩
      intro hzero
      rw [Nat.digitChar_eq_zero] at hzero
      omega
    · obtain ⟨c, cs, hcs, hc⟩ := ih (n / 10) (by omega) (by omega)
      refine ⟨c, cs ++ [(n % 10).digitChar], ?_, hc⟩
      rw [Nat.toDigits_of_base_le (by decide) (by omega), hcs]
      rfl

/-! ## Numbers -/

/-- The digits of a number are read with the number as their significand. -/
theorem readNumber_toDigits (negative : Bool) {n : Nat} (h : n < unsignedBound) {rest : Bytes}
    (hrest : EndsNumber rest) :
    readNumber negative (encode (Nat.toDigits 10 n) ++ rest) = integerValue negative n 0 rest := by
  have hafter : readAfterInteger negative n 0 rest = integerValue negative n 0 rest := by
    cases rest with
    | nil => rfl
    | cons b bs =>
      obtain ⟨-, hpoint, hletter⟩ := hrest b rfl
      rw [readAfterInteger, if_neg hpoint, if_neg (by simp [hletter])]
  -- a zero stands alone, any other digit opens a run of digits
  rcases Nat.eq_zero_or_pos n with rfl | hpos
  · show readNumber negative (Byte.zero :: rest) = _
    cases rest with
    | nil => exact hafter
    | cons b bs =>
      obtain ⟨hb, -, -⟩ := hrest b rfl
      rw [readNumber, if_pos rfl]
      show (if Byte.isDigit b then _ else _) = _
      rw [if_neg (by simp [hb]), hafter]
  · obtain ⟨c, cs, hcs, hzero⟩ := head_toDigits hpos
    have hdigits : ∀ d ∈ c :: cs, d.isDigit = true := by
      rw [← hcs]
      exact fun d hd => Nat.isDigit_of_mem_toDigits (by decide) (by decide) hd
    obtain ⟨hascii, hdigit, hvalue⟩ := isDigit_byte (hdigits c List.mem_cons_self)
    have hbyte : UInt8.ofNat c.toNat ≠ Byte.zero := by
      intro hb
      have hnat := congrArg UInt8.toNat hb
      rw [Text.Utf8.toNat_byte (by omega)] at hnat
      exact hzero (Char.ext (UInt32.toNat_inj.mp hnat))
    have hall : Nat.ofDigitChars 10 cs (c.toNat - '0'.toNat) = n := by
      have h₁ : Nat.ofDigitChars 10 (c :: cs) 0 = n := by rw [← hcs, Nat.ofDigitChars_ten_toDigits]
      rwa [Nat.ofDigitChars_cons, Nat.mul_zero, Nat.zero_add] at h₁
    have hrun := readDigitRun_chars (fun d hd => hdigits d (List.mem_cons_of_mem c hd))
      (c.toNat - '0'.toNat) (by rw [hall]; exact h) hrest
    rw [hcs, encode_cons_of_lt hascii, List.cons_append]
    show (if UInt8.ofNat c.toNat = Byte.zero then _
      else if Byte.isDigit (UInt8.ofNat c.toNat) then _ else _) = _
    rw [if_neg hbyte, if_pos hdigit, hvalue, hrun, hall]
    exact hafter

/-- The first byte of a printed integer is a minus sign or a digit, and what follows the sign is
read as the integer. -/
theorem readNumber_renderInt {n : Int} (h : IsWord n) {rest : Bytes} (hrest : EndsNumber rest) :
    ∃ b bytes, encode (renderInt n) = b :: bytes ∧
      ((b = Byte.minus ∧ readNumber true (bytes ++ rest) = .ok (.int n, rest)) ∨
        (Byte.isDigit b = true ∧ readNumber false (b :: bytes ++ rest) = .ok (.int n, rest))) := by
  obtain ⟨hlow, hhigh⟩ := h
  cases n with
  | ofNat n =>
    have hfits : n < unsignedBound := Int.ofNat_lt.mp hhigh
    have hread := readNumber_toDigits false hfits hrest
    have hvalue : integerValue false n 0 rest = .ok (.int n, rest) := rfl
    cases hcs : Nat.toDigits 10 n with
    | nil => exact absurd hcs Nat.toDigits_ne_nil
    | cons c cs =>
      obtain ⟨hascii, hdigit, -⟩ := isDigit_byte (Nat.isDigit_of_mem_toDigits (by decide)
        (by decide) (hcs ▸ List.mem_cons_self : c ∈ Nat.toDigits 10 n))
      rw [hcs, encode_cons_of_lt hascii, hvalue] at hread
      refine ⟨_, encode cs, ?_, .inr ⟨hdigit, hread⟩⟩
      show encode (Nat.toDigits 10 n) = _
      rw [hcs, encode_cons_of_lt hascii]
  | negSucc n =>
    have hfits : n + 1 ≤ signedBound := by
      have : -(signedBound : Int) ≤ -((n + 1 : Nat) : Int) := hlow
      omega
    have hbelow : n + 1 < unsignedBound := Nat.lt_of_le_of_lt hfits (by decide)
    have hread := readNumber_toDigits true hbelow hrest
    have hvalue : integerValue true (n + 1) 0 rest = .ok (.int (.negSucc n), rest) := by
      rw [integerValue, if_neg (by simp), if_neg (by simp), if_pos ⟨by simp, hfits⟩]
      rfl
    refine ⟨Byte.minus, encode (Nat.toDigits 10 (n + 1)), ?_, .inl ⟨rfl, hread.trans hvalue⟩⟩
    show encode ('-' :: _) = _
    rw [encode_cons_of_lt (by decide)]
    rfl

end Invigilation.Json
