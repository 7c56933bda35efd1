import Invigilation.Words

/-!
# Unsigned decimal numerals

Durations are written as decimal numbers below 2^64, with an optional `+` in front. Reading goes
digit by digit, so that of two faults the one further left is reported; on one character a bad
digit comes before overflow.
-/

namespace Invigilation.Text

/-- Why a text is not an unsigned number of 64 bits. -/
inductive NumeralFault where
  | empty
  | invalidDigit
  | tooLarge
  deriving DecidableEq, Repr

/-- The wording of a fault. -/
def NumeralFault.message : NumeralFault → String
  | .empty => "cannot parse integer from empty string"
  | .invalidDigit => "invalid digit found in string"
  | .tooLarge => "number too large to fit in target type"

/-- The value of an ASCII digit. -/
def digit? (c : Char) : Option Nat :=
  if '0' ≤ c ∧ c ≤ '9' then some (c.toNat - '0'.toNat) else none

/-- The value of a run of digits that follows digits of value `n`. -/
def readDigits (n : Nat) : List Char → Except NumeralFault Nat
  | [] => .ok n
  | c :: cs =>
    match digit? c with
    | none => .error .invalidDigit
    | some d => if n * 10 + d < unsignedBound then readDigits (n * 10 + d) cs else .error .tooLarge

/-- The number a text denotes: an optional `+`, then one or more digits, below 2^64. -/
def readUnsigned (s : String) : Except NumeralFault Nat :=
  match s.toList with
  | [] => .error .empty
  | ['+'] => .error .invalidDigit
  | '+' :: cs => readDigits 0 cs
  | cs => readDigits 0 cs

end Invigilation.Text
