import Invigilation.Json.Reader.Basic

/-!
# Reading JSON from bytes: numbers

The digits of a number are gathered into a significand below 2^64. Within one run of digits the
first digit that no longer fits, and all digits after it, are dropped; dropped integer digits count
as powers of ten, dropped fraction digits as nothing. A number without fraction and exponent that
fits in 64 bits, signed or unsigned, is an integer. Every other one is the significand, rounded to a
double, times or divided by the power of ten, rounded again; so it may differ from the nearest
double in its last place.
-/

namespace Invigilation.Json

open Text (Bytes)

/-- A run of digits that was added to a significand: the significand after it, how many digits it
took in, how many it dropped, and the bytes after the run. -/
structure DigitRun where
  significand : Nat
  kept : Nat
  dropped : Nat
  rest : Bytes

/-- Adds a run of digits to the significand `s`. -/
def readDigitRun (s : Nat) : Bytes → DigitRun
  | [] => ⟨s, 0, 0, []⟩
  | b :: bs =>
    if Byte.isDigit b then
      if s * 10 + Byte.digitValue b < unsignedBound then
        let run := readDigitRun (s * 10 + Byte.digitValue b) bs
        { run with kept := run.kept + 1 }
      else ⟨s, 0, 1 + (bs.takeWhile Byte.isDigit).length, bs.dropWhile Byte.isDigit⟩
    else ⟨s, 0, 0, b :: bs⟩

/-- The greatest exponent that is read. -/
def maxWrittenExponent : Nat := 2147483647

/-- An exponent and the bytes after it; an exponent above the greatest is none, with the bytes after
the digit that made it so. -/
def readExponentDigits (n : Nat) : Bytes → Option Nat × Bytes
  | [] => (some n, [])
  | b :: bs =>
    if Byte.isDigit b then
      if n * 10 + Byte.digitValue b ≤ maxWrittenExponent then
        readExponentDigits (n * 10 + Byte.digitValue b) bs
      else (none, bs)
    else (some n, b :: bs)

/-- The double of a significand and a power of ten, read up to `rest`. -/
def scaled (negative : Bool) (significand : Nat) (exponent : Int) : Reader Json := fun rest =>
  match Binary64.scaleTen? significand exponent with
  | some x => .ok (.float (.ofMagnitude negative x), rest)
  | none => .error (.before .numberOutOfRange rest)

/-- Reads the digits of an exponent, after its sign. -/
def readExponentFrom (negative : Bool) (significand : Nat) (start : Int) (down : Bool) :
    Reader Json
  | [] => .error (.before .endInValue [])
  | b :: bs =>
    if Byte.isDigit b then
      match readExponentDigits (Byte.digitValue b) bs with
      | (some n, rest) =>
        scaled negative significand (if down then start - n else start + n) rest
      | (none, rest) =>
        if significand ≠ 0 ∧ ¬ down then .error (.before .numberOutOfRange rest)
        else
          .ok (.float (.ofMagnitude negative .zero), rest.dropWhile Byte.isDigit)
    else .error (.before .invalidNumber bs)

/-- Reads an exponent, after its letter. -/
def readExponent (negative : Bool) (significand : Nat) (start : Int) : Reader Json
  | [] => .error (.before .endInValue [])
  | b :: bs =>
    if b = Byte.plus then readExponentFrom negative significand start false bs
    else if b = Byte.minus then readExponentFrom negative significand start true bs
    else readExponentFrom negative significand start false (b :: bs)

/-- Whether a byte is the letter before an exponent. -/
def isExponentLetter (b : UInt8) : Bool :=
  b == Byte.lowerE || b == Byte.upperE

/-- Reads a fraction, after its point. -/
def readFraction (negative : Bool) (significand : Nat) (start : Int) : Reader Json := fun bs =>
  let run := readDigitRun significand bs
  if run.kept = 0 ∧ run.dropped = 0 then
    match bs with
    | [] => .error (.peek .endInValue [])
    | b :: rest => .error (.peek .invalidNumber (b :: rest))
  else
    let exponent := start - run.kept
    match run.rest with
    | [] => scaled negative run.significand exponent []
    | b :: rest =>
      if isExponentLetter b then readExponent negative run.significand exponent rest
      else scaled negative run.significand exponent (b :: rest)

/-- A number that ends after its integer digits. -/
def integerValue (negative : Bool) (significand dropped : Nat) : Reader Json := fun rest =>
  if dropped ≠ 0 then scaled negative significand dropped rest
  else if ¬ negative then .ok (.int significand, rest)
  else if significand ≠ 0 ∧ significand ≤ signedBound then .ok (.int (-significand), rest)
  else scaled true significand 0 rest

/-- Reads what follows the integer digits. -/
def readAfterInteger (negative : Bool) (significand dropped : Nat) : Reader Json
  | [] => integerValue negative significand dropped []
  | b :: rest =>
    if b = Byte.point then readFraction negative significand dropped rest
    else if isExponentLetter b then readExponent negative significand dropped rest
    else integerValue negative significand dropped (b :: rest)

/-- Reads a number, after its minus sign if it has one. -/
def readNumber (negative : Bool) : Reader Json
  | [] => .error (.before .endInValue [])
  | b :: bs =>
    if b = Byte.zero then
      match bs with
      | [] => readAfterInteger negative 0 0 []
      | c :: rest =>
        if Byte.isDigit c then .error (.peek .invalidNumber (c :: rest))
        else readAfterInteger negative 0 0 (c :: rest)
    else if Byte.isDigit b then
      let run := readDigitRun (Byte.digitValue b) bs
      readAfterInteger negative run.significand run.dropped run.rest
    else .error (.before .invalidNumber bs)

end Invigilation.Json
