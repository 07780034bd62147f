import DeskCalc.Decimal.Binary64

/-! # Shortest decimals

The decimal that stands for a double is the shortest one that reads back as the same double, and
among those the nearest to it.  It is found on the coarsest grid of powers of ten that has a point
in the interval of numbers that round to the double. -/

namespace DeskCalc

/-- The number `digits · 10 ^ exponent`. -/
structure Decimal where
  digits : Nat
  exponent : Int
deriving DecidableEq

namespace Decimal

/-- The numbers that round to one double, in units of `2 ^ exponent`: from `low` to `high` around
`middle`, the ends included when `closed`. -/
structure Neighbourhood where
  low : Nat
  middle : Nat
  high : Nat
  exponent : Int
  closed : Bool

/-- The neighbourhood of `significand · 2 ^ exponent`, in quarters of that unit.  Below a power of
two the next smaller double is only half as far away. -/
def neighbourhood (significand : Nat) (exponent : Int) : Neighbourhood where
  low := if significand = Nat.pow 2 52 ∧ -1074 < exponent then 4 * significand - 1
    else 4 * significand - 2
  middle := 4 * significand
  high := 4 * significand + 2
  exponent := exponent - 2
  closed := significand % 2 = 0

namespace Neighbourhood

/-- The step of the grid of multiples of `10 ^ k`, on the scale that makes both the grid and the
neighbourhood whole numbers. -/
def gridStep (n : Neighbourhood) (k : Int) : Nat :=
  Nat.pow 10 k.toNat * Nat.pow 2 (-n.exponent).toNat

/-- The unit of the neighbourhood on the same scale as `gridStep`. -/
def unit (n : Neighbourhood) (k : Int) : Nat :=
  Nat.pow 2 n.exponent.toNat * Nat.pow 10 (-k).toNat

/-- Whether `c · 10 ^ k` lies in the neighbourhood. -/
def holds (n : Neighbourhood) (k : Int) (c : Nat) : Bool :=
  let point := c * n.gridStep k
  if n.closed then n.low * n.unit k ≤ point && point ≤ n.high * n.unit k
  else n.low * n.unit k < point && point < n.high * n.unit k

/-- The multiple of `10 ^ k` in the neighbourhood that is nearest to the middle, the larger of two
equally near ones, if there is any. -/
def gridPoint? (n : Neighbourhood) (k : Int) : Option Nat :=
  let middle := n.middle * n.unit k
  let step := n.gridStep k
  let below := middle / step
  let above := below + 1
  -- no grid point is nearer than the two between which the middle lies
  if n.holds k below then
    if n.holds k above && above * step - middle ≤ middle - below * step then some above
    else some below
  else if n.holds k above then some above
  else none

/-- Looks for a grid point on the grids of `10 ^ k`, `10 ^ (k - 1)` and so on. -/
def search (n : Neighbourhood) : Nat → Int → Option Decimal
  | 0, _ => none
  | fuel + 1, k =>
    match n.gridPoint? k with
    | some c => some ⟨c, k⟩
    | none => n.search fuel (k - 1)

end Neighbourhood

/-- The number `significand · 2 ^ exponent` with all its digits. -/
def exact (significand : Nat) (exponent : Int) : Decimal :=
  if 0 ≤ exponent then ⟨significand * Nat.pow 2 exponent.toNat, 0⟩
  else ⟨significand * Nat.pow 5 (-exponent).toNat, exponent⟩

/-- A power of ten above `significand · 2 ^ exponent`, by way of `log10 2 < 0.30103`. -/
def decimalBound (significand : Nat) (exponent : Int) : Int :=
  (significand.log2 + 1 + exponent) * 30103 / 100000 + 2

/-- The shortest decimal that reads back as the finite double with these `bits`.  Seventeen digits
always suffice, so the search ends long before its limit. -/
def shortest (bits : Nat) : Decimal :=
  let m := Binary64.significand bits
  let q := Binary64.binaryExponent bits
  ((neighbourhood m q).search 25 (decimalBound m q)).getD (exact m q)

end Decimal

end DeskCalc
