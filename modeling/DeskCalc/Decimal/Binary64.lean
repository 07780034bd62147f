/-! # Double precision numbers, exactly

A finite double is `significand · 2 ^ exponent` with natural significand.  This module takes that
form out of the bits and goes the other way: `nearestBits` rounds a quotient of natural numbers to
the nearest double, a tie going to the even significand.  All of it is exact arithmetic. -/

namespace DeskCalc.Binary64

/-- The biased exponent stored in the bits of a double. -/
def biasedExponent (bits : Nat) : Nat :=
  bits / Nat.pow 2 52 % Nat.pow 2 11

/-- The significand of a finite double, the implicit bit included. -/
def significand (bits : Nat) : Nat :=
  if biasedExponent bits = 0 then bits % Nat.pow 2 52
  else bits % Nat.pow 2 52 + Nat.pow 2 52

/-- The power of two that scales the significand; subnormal numbers share the smallest one. -/
def binaryExponent (bits : Nat) : Int :=
  max (biasedExponent bits : Int) 1 - 1075

/-- Whether the sign bit of `x` is set. -/
def isNegative (x : Float) : Bool :=
  Nat.pow 2 63 ≤ x.toBits.toNat

/-- The greatest `e` with `2 ^ e ≤ num / den`, for positive `num` and `den`. -/
def floorLog2 (num den : Nat) : Int :=
  let guess : Int := (num.log2 : Int) - den.log2
  -- the guess is right or one too large
  if num * Nat.pow 2 (-guess).toNat < den * Nat.pow 2 guess.toNat then guess - 1 else guess

/-- The natural number nearest to `num / den`; a tie goes to the even neighbour. -/
def roundQuotient (num den : Nat) : Nat :=
  let low := num / den
  let twice := 2 * (num % den)
  -- in a tie the remainder of `low` by two leads to the even neighbour
  if twice < den then low else if den < twice then low + 1 else low + low % 2

/-- The bits of the double nearest to `num / den`, infinity from halfway above the largest.  A
carry out of the significand runs into the exponent field, which is what rounding up means there. -/
def nearestBits (num den : Nat) : Nat :=
  if num = 0 then 0
  else
    -- subnormal numbers share the smallest exponent
    let exponent := max (floorLog2 num den - 52) (-1074)
    let rounded :=
      roundQuotient (num * Nat.pow 2 (-exponent).toNat) (den * Nat.pow 2 exponent.toNat)
    min ((exponent + 1074).toNat * Nat.pow 2 52 + rounded) (2047 * Nat.pow 2 52)

/-- The double nearest to `num / den`. -/
def nearest (num den : Nat) : Float :=
  Float.ofBits (nearestBits num den).toUInt64

end DeskCalc.Binary64
