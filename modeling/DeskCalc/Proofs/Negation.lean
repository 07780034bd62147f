import Mathlib

/-!
# Negating a double twice

A trace shows the operand of a negation by negating the value that came of it.  That this is the
operand again is a fact about doubles: negation only turns the sign of the unpacked number, and a
double is packed again into the bits that it was unpacked from.

The facts about packing that this rests on are part of no narrower import than the whole library.

## Key results

- `unpack_neg`: the unpacked negative of a double is the negative of the unpacked double
- `neg_neg`: negating twice gives back the operand, zeros, infinities and the one NaN included
-/

namespace DeskCalc.Binary64

open Float.Model (Format UnpackedFloat)
open Float.Model.UnpackedFloat

/-- Turning the sign bit turns the sign of what is unpacked. -/
private theorem unpack_packComponents_neg {spec : Format} (s : Sign) (e : BitVec spec.exponentBits)
    (m : BitVec spec.mantissaBitsWithoutImplicit) :
    UnpackedFloat.unpack spec (packComponents spec (-s) e m) =
      (UnpackedFloat.unpack spec (packComponents spec s e m)).neg := by
  simp only [UnpackedFloat.unpack, unpackExponent_packComponents, unpackSign_packComponents,
    unpackMantissa_packComponents, Sign.ofBitVec_toBitVec]
  -- infinities and NaNs, zeros and subnormal numbers, and normal numbers
  split
  · split <;> rfl
  · split
    · split <;> rfl
    · rfl

/-- Packing loses nothing of what was unpacked; of a NaN only the payload, which is not unpacked. -/
theorem unpack_pack_unpack {spec : Format} (b : BitVec spec.numBits) (h : 2 ≤ spec.exponentBits) :
    UnpackedFloat.unpack spec (pack spec (UnpackedFloat.unpack spec b)) =
      UnpackedFloat.unpack spec b := by
  rw [pack_unpack b h]
  split
  · next hnan =>
    simp only [isNaNBits, decide_eq_true_eq] at hnan
    rw [unpack_packedNaN, UnpackedFloat.unpack, if_pos hnan.1, if_neg hnan.2]
  · rfl

/-- Turning the sign twice changes nothing of an unpacked number. -/
private theorem unpacked_neg_neg (u : UnpackedFloat) : u.neg.neg = u := by
  have hsign (s : Sign) : - -s = s := by cases s <;> rfl
  cases u <;> simp [UnpackedFloat.neg, hsign]

/-- The negative of a double unpacks to the negative of what the double unpacks to. -/
theorem unpack_neg (x : Float.Model) : (-x).unpack = x.unpack.neg := by
  let bits : BitVec (Format.numBits .binary64) := x.toBits.toBitVec
  -- the negative of the unpacked number is itself unpacked from bits: those with the sign turned
  have hneg := unpack_packComponents_neg (Sign.ofBitVec (unpackSign bits)) (unpackExponent bits)
    (unpackMantissa bits)
  rw [packComponents_unpackSign_unpackExponent_unpackMantissa bits] at hneg
  have hturned : x.unpack.neg = UnpackedFloat.unpack .binary64 _ := hneg.symm
  show UnpackedFloat.unpack _ (pack .binary64 x.unpack.neg) = _
  rw [hturned]
  exact unpack_pack_unpack _ (by decide)

/-- Negating a double twice gives it back. -/
theorem neg_neg (x : Float) : - -x = x := by
  obtain ⟨a⟩ := x
  have hpack : a.unpack.pack .binary64 = a.toBits.toBitVec :=
    pack_unpack_of_valid a.valid (by decide)
  have hmodel : - -a = a := by
    show Float.Model.pack (-a).unpack.neg = a
    rw [unpack_neg, unpacked_neg_neg]
    cases a
    simp_all [Float.Model.pack]
  show Float.ofModel (- -a) = Float.ofModel a
  rw [hmodel]

end DeskCalc.Binary64
