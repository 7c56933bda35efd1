import Invigilation.Words

/-!
# Numbers in double precision

A JSON number that is no 64-bit integer is kept as its double-precision word. All arithmetic here is
on natural numbers: a positive value is `significand * 2 ^ exponent`, and every operation computes
the exact quotient of two naturals and rounds it once, to nearest, ties to even.

- `Binary64`: the word of sixty-four bits.
- `Magnitude`: a non-negative finite value as significand and exponent.
- `Magnitude.ofRatio?`: the nearest magnitude to a quotient, if it does not overflow.
- `scaleTen?`: a significand times a power of ten, in at most one rounding for each factor.
-/

namespace Invigilation

/-- A double-precision number, as its bits. -/
structure Binary64 where
  bits : UInt64
  deriving DecidableEq, Repr, Inhabited

namespace Binary64

/-- The value `significand * 2 ^ exponent`. In a normalized magnitude the exponent is at least
-1074, the significand is below 2^53, and one below 2^52 stands only at exponent -1074. -/
structure Magnitude where
  significand : Nat
  exponent : Int
  deriving DecidableEq, Repr

/-- The leading bit of a significand, 2^52. -/
def leadingBit : Nat := 4503599627370496

/-- The least exponent of a magnitude. -/
def minExponent : Int := -1074

/-- The greatest exponent of a magnitude. -/
def maxExponent : Int := 971

/-- A quotient rounded to the nearest natural number, ties to even. -/
def roundQuotient (num den : Nat) : Nat :=
  let q := num / den
  let twice := 2 * (num % den)
  if den < twice ∨ (twice = den ∧ q % 2 = 1) then q + 1 else q

/-- The quotient `num / den` times `2 ^ shift`, as a quotient of naturals. -/
def shiftRatio (num den : Nat) (shift : Int) : Nat × Nat :=
  if 0 ≤ shift then (num * Nat.pow 2 shift.toNat, den) else (num, den * Nat.pow 2 (-shift).toNat)

/-- The exponent of the greatest power of two that is not above `num / den`. -/
def floorLog (num den : Nat) : Int :=
  let guess : Int := (Nat.log2 num : Int) - (Nat.log2 den : Int)
  let (n, d) := shiftRatio num den (-guess)
  if d ≤ n then guess else guess - 1

namespace Magnitude

def zero : Magnitude := ⟨0, minExponent⟩

/-- The magnitude nearest to `num / den`; none when it would not be finite. -/
def ofRatio? (num den : Nat) : Option Magnitude :=
  if num = 0 then some zero
  else
    let exponent := max minExponent (floorLog num den - 52)
    let (n, d) := shiftRatio num den (-exponent)
    let m := roundQuotient n d
    let r : Magnitude := if m = 2 * leadingBit then ⟨leadingBit, exponent + 1⟩ else ⟨m, exponent⟩
    if maxExponent < r.exponent then none else some r

/-- The magnitude as an exact quotient. -/
def ratio (x : Magnitude) : Nat × Nat :=
  shiftRatio x.significand 1 x.exponent

/-- The rounded product. -/
def mul? (x y : Magnitude) : Option Magnitude :=
  ofRatio? (x.ratio.1 * y.ratio.1) (x.ratio.2 * y.ratio.2)

/-- The rounded quotient by a positive magnitude. -/
def div? (x y : Magnitude) : Option Magnitude :=
  ofRatio? (x.ratio.1 * y.ratio.2) (x.ratio.2 * y.ratio.1)

/-- The magnitude nearest to `10 ^ n`. -/
def tenPower? (n : Nat) : Option Magnitude :=
  ofRatio? (Nat.pow 10 n) 1

/-- The bits of the magnitude, sign bit clear. -/
def bits (x : Magnitude) : Nat :=
  if x.significand < leadingBit then x.significand
  else (x.exponent + 1075).toNat * leadingBit + (x.significand - leadingBit)

end Magnitude

/-- The greatest power of ten that has a finite magnitude. -/
def maxTenPower : Nat := 308

/-- A magnitude divided by `10 ^ n`, dividing by 10^308 as long as the rest of the power is larger
than that; zero stays zero. -/
def divideTen (x : Magnitude) (n : Nat) : Option Magnitude :=
  if n ≤ maxTenPower then do
    let p ← Magnitude.tenPower? n
    x.div? p
  else if x.significand = 0 then some x
  else do
    let p ← Magnitude.tenPower? maxTenPower
    let y ← x.div? p
    divideTen y (n - maxTenPower)
termination_by n
decreasing_by simp only [maxTenPower] at *; omega

/-- The value of a decimal significand below 2^64 times a power of ten: the significand is rounded
first, then the product or quotient. None when the result is not finite. -/
def scaleTen? (significand : Nat) (exponent : Int) : Option Magnitude := do
  let x ← Magnitude.ofRatio? significand 1
  if exponent < 0 then divideTen x (-exponent).toNat
  else if exponent.toNat ≤ maxTenPower then
    let p ← Magnitude.tenPower? exponent.toNat
    x.mul? p
  else if x.significand = 0 then some x
  else none

/-- The number with a sign and a magnitude. -/
def ofMagnitude (negative : Bool) (x : Magnitude) : Binary64 :=
  ⟨UInt64.ofNat ((if negative then signedBound else 0) + x.bits)⟩

/-- Whether the sign bit is set. -/
def isNegative (x : Binary64) : Bool :=
  signedBound ≤ x.bits.toNat

/-- The magnitude of a finite number. -/
def magnitude (x : Binary64) : Magnitude :=
  let word := x.bits.toNat % signedBound
  let field : Nat := word / leadingBit
  let fraction : Nat := word % leadingBit
  if field = 0 then ⟨fraction, minExponent⟩ else ⟨leadingBit + fraction, (field : Int) - 1075⟩

end Binary64

end Invigilation
