import Invigilation.Binary64.Basic

/-!
# The shortest decimal of a double

A finite positive double stands for every decimal that rounds to it. `shortest` picks the one with
the fewest digits, and of those the one nearest to the exact value. The interval of decimals that
round to a magnitude is measured in quarters of its last place: half a place to each side, a quarter
below when the neighbour below has a smaller place, and the two ends belong to it when the
significand is even.

On the grid of decimals with `n` digits only the two neighbours of the exact value need a test:
if any point of the grid lies in the interval, one of these does.
-/

namespace Invigilation.Binary64

/-- A decimal `digits * 10 ^ exponent`. -/
structure Decimal where
  digits : Nat
  exponent : Int
  deriving DecidableEq, Repr

/-- Powers as quotients: the pair `(base ^ e, 1)` or `(1, base ^ -e)`. -/
def powerRatio (base : Nat) (e : Int) : Nat × Nat :=
  if 0 ≤ e then (Nat.pow base e.toNat, 1) else (1, Nat.pow base (-e).toNat)

/-- A decimal grid seen from a magnitude: `d` points of the grid equal `x` quarter places of the
magnitude iff `d * perPoint = x * perQuarter`. -/
structure Grid where
  perPoint : Nat
  perQuarter : Nat

/-- The grid of the multiples of `10 ^ g`, for a magnitude with exponent `e`. -/
def Grid.of (e g : Int) : Grid :=
  let ten := powerRatio 10 g
  let two := powerRatio 2 (e - 2)
  ⟨ten.1 * two.2, two.1 * ten.2⟩

/-- Whether the point `d` of a grid rounds to the magnitude. -/
def Grid.roundsTo (grid : Grid) (x : Magnitude) (d : Nat) : Bool :=
  let below := if x.significand = leadingBit ∧ minExponent < x.exponent then 1 else 2
  let low := (4 * x.significand - below) * grid.perQuarter
  let high := (4 * x.significand + 2) * grid.perQuarter
  let point := d * grid.perPoint
  if x.significand % 2 = 0 then low ≤ point && point ≤ high else low < point && point < high

/-- The nearer of the two neighbours `d` and `d + 1` of the exact value among those that round to
the magnitude; of two at one distance the even one. -/
def Grid.nearest? (grid : Grid) (x : Magnitude) (d : Nat) : Option Nat :=
  let exact := 4 * x.significand * grid.perQuarter
  let gapBelow := exact - d * grid.perPoint
  let gapAbove := (d + 1) * grid.perPoint - exact
  match grid.roundsTo x d, grid.roundsTo x (d + 1) with
  | false, false => none
  | true, false => some d
  | false, true => some (d + 1)
  | true, true =>
    if gapBelow < gapAbove ∨ (gapBelow = gapAbove ∧ d % 2 = 0) then some d else some (d + 1)

/-- The exponent of the greatest power of ten that is not above `num / den`, given that it is at
least `low` and below `low + fuel`. -/
def floorLogTen (num den : Nat) (low : Int) : Nat → Int
  | 0 => low
  | fuel + 1 =>
    let ten := powerRatio 10 (low + 1)
    if ten.1 * den ≤ num * ten.2 then floorLogTen num den (low + 1) fuel else low

/-- The decimal exponent of the leading digit of a positive magnitude. The search starts at the
binary logarithm times 0.3, rounded down, which is at most 17 off. -/
def leadingExponent (x : Magnitude) : Int :=
  let (num, den) := x.ratio
  let log := floorLog num den
  let guess := (if 0 ≤ log then log * 3 / 10 else log * 31 / 100) - 1
  floorLogTen num den guess 20

/-- The first grid, from `n` digits on, with a point that rounds to the magnitude. -/
def searchGrids (x : Magnitude) (leading : Int) (n : Nat) : Nat → Decimal
  | 0 => ⟨0, 0⟩
  | fuel + 1 =>
    let g := leading - (n : Int) + 1
    let grid := Grid.of x.exponent g
    match grid.nearest? x (4 * x.significand * grid.perQuarter / grid.perPoint) with
    | some d => ⟨d, g⟩
    | none => searchGrids x leading (n + 1) fuel

/-- A decimal with the zeros at the end of its digits moved into the exponent. -/
def Decimal.strip (d : Decimal) : Nat → Decimal
  | 0 => d
  | fuel + 1 =>
    if d.digits % 10 = 0 ∧ d.digits ≠ 0 then
      (Decimal.mk (d.digits / 10) (d.exponent + 1)).strip fuel
    else d

/-- The shortest decimal that rounds to a positive magnitude. Seventeen digits always suffice. -/
def shortest (x : Magnitude) : Decimal :=
  (searchGrids x (leadingExponent x) 1 17).strip 20

end Invigilation.Binary64
