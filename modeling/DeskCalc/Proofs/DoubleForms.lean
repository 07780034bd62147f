import DeskCalc.Decimal.Notation
import DeskCalc.Proofs.Negation
import DeskCalc.Proofs.ShortestDecimals

/-!
# What the bits of a double say

Without its sign bit a double is a natural number: zero is `0`, the finite doubles follow in the
order of their values, infinity comes behind them, and all that is larger is not a number.  So the
comparisons that decide how a value is written are comparisons of its exact magnitude.

## Key results

- `unpack_eq`: what a double is unpacked to, by its bits without the sign
- `isNaN_iff`, `isInf_iff`: the bits of the doubles that are not finite
- `ofBits_magnitudeBits`: a double is its sign bit and the bits behind it
- `abs_lt_iff`: magnitudes are compared as the numbers that they are
- `inPlainRange_iff`: plain notation is for zero and for magnitudes from a thousandth to ten million
-/

namespace DeskCalc.Binary64

open Float.Model (Format UnpackedFloat)
open Float.Model.UnpackedFloat

/-- The bits of a double without the sign. -/
def magnitudeBits (x : Float) : ℕ :=
  x.toBits.toNat % 2 ^ 63

/-- The absolute value of a finite double; infinity counts as the power of two behind them. -/
def absValue (x : Float) : ℚ :=
  significand (magnitudeBits x) * 2 ^ binaryExponent (magnitudeBits x)

/-- The stored bits, as the library unpacks them. -/
def storedBits (x : Float) : BitVec (Format.numBits .binary64) :=
  x.toBits.toBitVec

/-- The sign of a double, that of a zero included. -/
def sign (x : Float) : Sign :=
  Sign.ofBitVec (unpackSign (storedBits x))

/-! ## Unpacking in terms of natural numbers -/

/-- There are 63 bits without the sign. -/
private theorem magnitudeBits_lt (x : Float) : magnitudeBits x < 2 ^ 63 :=
  Nat.mod_lt _ (by norm_num)

/-- The mantissa is in the lowest 52 bits. -/
private theorem toNat_unpackMantissa (x : Float) :
    (unpackMantissa (storedBits x)).toNat = magnitudeBits x % 2 ^ 52 := by
  have hbits : (storedBits x).toNat = x.toBits.toNat := rfl
  rw [unpackMantissa_def, BitVec.extractLsb'_toNat, Nat.shiftRight_zero, hbits]
  show x.toBits.toNat % 2 ^ 52 = x.toBits.toNat % 2 ^ 63 % 2 ^ 52
  omega

/-- The exponent is in the bits above the mantissa. -/
private theorem toNat_unpackExponent (x : Float) :
    (unpackExponent (storedBits x)).toNat = magnitudeBits x / 2 ^ 52 := by
  have hbits : (storedBits x).toNat = x.toBits.toNat := rfl
  rw [unpackExponent_def, BitVec.extractLsb'_toNat, Nat.shiftRight_eq_div_pow, hbits]
  show x.toBits.toNat / 2 ^ 52 % 2 ^ 11 = x.toBits.toNat % 2 ^ 63 / 2 ^ 52
  omega

/-- The mantissa is zero when the lowest 52 bits are. -/
private theorem unpackMantissa_eq_zero_iff (x : Float) :
    unpackMantissa (storedBits x) = 0#52 ↔ magnitudeBits x % 2 ^ 52 = 0 := by
  rw [← toNat_unpackMantissa, ← BitVec.toNat_inj]
  rfl

/-- The exponent is known from the bits above the mantissa. -/
private theorem unpackExponent_eq_iff (x : Float) (e : BitVec 11) :
    unpackExponent (storedBits x) = e ↔ magnitudeBits x / 2 ^ 52 = e.toNat := by
  rw [← toNat_unpackExponent, BitVec.toNat_inj]

/-- The implicit bit stands before the mantissa. -/
private theorem toNat_implicit_append (m : BitVec 52) : (1#1 ++ m).toNat = m.toNat + 2 ^ 52 := by
  have hor := Nat.two_pow_add_eq_or_of_lt m.isLt 1
  rw [Nat.mul_one] at hor
  rw [BitVec.toNat_append, Nat.shiftLeft_eq]
  show 1 * 2 ^ 52 ||| m.toNat = _
  rw [Nat.one_mul, ← hor, Nat.add_comm]

/-- Only zero has no significand. -/
private theorem significand_pos {bits : ℕ} (hpos : bits ≠ 0) (hfinite : bits < 2047 * 2 ^ 52) :
    0 < significand bits :=
  (normalForm_of_bits (Nat.pos_of_ne_zero hpos) hfinite).1.pos

/-- What a double is unpacked to, by its bits without the sign. -/
theorem unpack_eq (x : Float) :
    x.toModel.unpack =
      if hzero : magnitudeBits x = 0 then .zero (sign x)
      else if hfinite : magnitudeBits x < 2047 * 2 ^ 52 then
        .finite (sign x) (significand (magnitudeBits x)) (binaryExponent (magnitudeBits x))
          (significand_pos hzero hfinite)
      else if magnitudeBits x = 2047 * 2 ^ 52 then .infinity (sign x)
      else .notANumber := by
  show UnpackedFloat.unpack .binary64 (storedBits x) = _
  have hlt := magnitudeBits_lt x
  have hones : unpackExponent (storedBits x) = -1#11 ↔ magnitudeBits x / 2 ^ 52 = 2047 :=
    unpackExponent_eq_iff x _
  have hnone : unpackExponent (storedBits x) = 0#11 ↔ magnitudeBits x / 2 ^ 52 = 0 :=
    unpackExponent_eq_iff x _
  have hmantissa := unpackMantissa_eq_zero_iff x
  have hbiased := biasedExponent_of_lt hlt
  unfold UnpackedFloat.unpack
  dsimp only
  -- in the order in which the library looks: the exponent is all ones, or zero, or neither
  split
  · next h =>
    rw [hones] at h
    split
    · next h' =>
      rw [hmantissa] at h'
      rw [dif_neg (by omega), dif_neg (by omega), if_pos (by omega)]
      rfl
    · next h' =>
      rw [hmantissa] at h'
      rw [dif_neg (by omega), dif_neg (by omega), if_neg (by omega)]
  · next h =>
    rw [hones] at h
    split
    · next h' =>
      rw [hnone] at h'
      split
      · next h'' =>
        rw [hmantissa] at h''
        rw [dif_pos (by omega)]
        rfl
      · next h'' =>
        -- a subnormal number: the mantissa is the significand
        rw [hmantissa] at h''
        rw [dif_neg (by omega), dif_pos (by omega)]
        simp only [finite.injEq, significand, binaryExponent, hbiased, h', if_true, Nat.pow_eq,
          toNat_unpackMantissa, toNat_unpackExponent]
        exact ⟨rfl, trivial, rfl⟩
    · next h' =>
      -- a normal number: the implicit bit goes before the mantissa
      rw [hnone] at h'
      rw [dif_neg (by omega), dif_pos (by omega)]
      simp only [finite.injEq, significand, binaryExponent, hbiased, h', if_false, Nat.pow_eq,
        toNat_unpackMantissa, toNat_unpackExponent, toNat_implicit_append]
      have hbias : (Format.exponentBias .binary64 : ℤ) = 1023 := rfl
      refine ⟨rfl, trivial, ?_⟩
      rw [hbias]
      omega

/-! ## The classes of doubles -/

/-- The bits of no number are above those of infinity. -/
theorem isNaN_iff (x : Float) : x.isNaN = true ↔ 2047 * 2 ^ 52 < magnitudeBits x := by
  show x.toModel.unpack.isNaN = true ↔ _
  rw [unpack_eq]
  split
  · exact iff_of_false Bool.false_ne_true (by omega)
  · split
    · exact iff_of_false Bool.false_ne_true (by omega)
    · split
      · exact iff_of_false Bool.false_ne_true (by omega)
      · exact iff_of_true rfl (by omega)

/-- Infinity has all bits of the exponent and none of the mantissa. -/
theorem isInf_iff (x : Float) : x.isInf = true ↔ magnitudeBits x = 2047 * 2 ^ 52 := by
  show x.toModel.unpack.isInf = true ↔ _
  rw [unpack_eq]
  split
  · exact iff_of_false Bool.false_ne_true (by omega)
  · split
    · exact iff_of_false Bool.false_ne_true (by omega)
    · split
      · next h => exact iff_of_true rfl h
      · next h => exact iff_of_false Bool.false_ne_true h

/-- A double that is neither infinite nor no number. -/
theorem magnitudeBits_lt_of_finite {x : Float} (hnan : x.isNaN = false) (hinf : x.isInf = false) :
    magnitudeBits x < 2047 * 2 ^ 52 := by
  have hnan' := mt (isNaN_iff x).2 (by rw [hnan]; exact Bool.false_ne_true)
  have hinf' := mt (isInf_iff x).2 (by rw [hinf]; exact Bool.false_ne_true)
  omega

/-- A double is made of its sign bit and the bits behind it. -/
theorem ofBits_magnitudeBits (x : Float) :
    Float.ofBits (if isNegative x then magnitudeBits x + 2 ^ 63 else magnitudeBits x).toUInt64 =
      x := by
  have hlt : x.toBits.toNat < 2 ^ 64 := x.toBits.toNat_lt
  -- the sign is the highest of the 64 bits
  have hbits : (if isNegative x then magnitudeBits x + 2 ^ 63 else magnitudeBits x) =
      x.toBits.toNat := by
    unfold isNegative magnitudeBits
    rw [Nat.pow_eq]
    simp only [decide_eq_true_eq]
    split
    · omega
    · omega
  rw [hbits]
  show Float.ofBits (UInt64.ofNat x.toBits.toNat) = x
  rw [UInt64.ofNat_toNat, Float.ofBits_toBits]

/-! ## The order of doubles -/

/-- Doubles compare as what they are unpacked to. -/
private theorem le_iff_unpack (x y : Float) :
    x ≤ y ↔ x.toModel.unpack.le y.toModel.unpack = true := by
  show decide (x.toModel ≤ y.toModel) = true ↔ _
  rw [decide_eq_true_eq]
  rfl

/-- Doubles compare strictly as what they are unpacked to. -/
private theorem lt_iff_unpack (x y : Float) :
    x < y ↔ x.toModel.unpack.lt y.toModel.unpack = true := by
  show decide (x.toModel < y.toModel) = true ↔ _
  rw [decide_eq_true_eq]
  rfl

/-- The absolute value is unpacked to the absolute value of what is unpacked. -/
private theorem unpack_abs (x : Float) : x.abs.toModel.unpack = x.toModel.unpack.abs := by
  have hcases : x.toModel.unpack.abs = x.toModel.unpack ∨
      x.toModel.unpack.abs = x.toModel.unpack.neg := by
    rcases x.toModel.unpack with (_ | _) | _ | (_ | _) | ⟨_ | _, m, e, hm⟩
    all_goals first | exact Or.inl rfl | exact Or.inr rfl
  show UnpackedFloat.unpack _ (pack .binary64 x.toModel.unpack.abs) = _
  -- h | unpacking undoes packing, of what was unpacked and of its negative
  rcases hcases with h | h
  · rw [h]
    exact unpack_pack_unpack _ (by decide)
  · rw [h]
    exact unpack_neg x.toModel

/-- The value of a finite double that is not zero, in its one form. -/
private theorem normalForm_of_finite {x : Float} (hzero : magnitudeBits x ≠ 0)
    (hfinite : magnitudeBits x < 2047 * 2 ^ 52) :
    IsNormalForm (significand (magnitudeBits x)) (binaryExponent (magnitudeBits x)) :=
  (normalForm_of_bits (Nat.pos_of_ne_zero hzero) hfinite).1

/-- Of the finite doubles, only zero has the value zero. -/
theorem absValue_eq_zero_iff {x : Float} (hfinite : magnitudeBits x < 2047 * 2 ^ 52) :
    absValue x = 0 ↔ magnitudeBits x = 0 := by
  unfold absValue
  constructor
  · intro h
    by_contra hzero
    have hm : (0 : ℚ) < significand (magnitudeBits x) :=
      Nat.cast_pos.2 (normalForm_of_finite hzero hfinite).pos
    exact (mul_pos hm (zpow_pos two_pos _)).ne' h
  · intro h
    have hsignificand : significand 0 = 0 := by decide
    rw [h, hsignificand, Nat.cast_zero, zero_mul]

/-- The absolute value of a finite double against a positive one, in terms of their values. -/
theorem abs_lt_iff {x c : Float} {m : ℕ} {q : ℤ} {hm : 0 < m}
    (hfinite : magnitudeBits x < 2047 * 2 ^ 52) (hc : c.toModel.unpack = .finite .positive m q hm)
    (hform : IsNormalForm m q) :
    (x.abs < c ↔ absValue x < m * 2 ^ q) ∧ (c ≤ x.abs ↔ m * 2 ^ q ≤ absValue x) := by
  rw [lt_iff_unpack, le_iff_unpack, unpack_abs, hc, unpack_eq]
  have hpos : (0 : ℚ) < m * 2 ^ q := mul_pos (Nat.cast_pos.2 hm) (zpow_pos two_pos q)
  split
  · next hzero =>
    rw [(absValue_eq_zero_iff hfinite).2 hzero]
    exact ⟨iff_of_true rfl hpos, iff_of_false Bool.false_ne_true hpos.not_ge⟩
  · next hzero =>
    -- forms with an exponent of their own compare by the exponent and then by the significand
    have hlt := (normalForm_of_finite hzero hfinite).lt_iff hform
    simp only [UnpackedFloat.abs, UnpackedFloat.lt, UnpackedFloat.le, UnpackedFloat.compare,
      Option.any_some, beq_iff_eq, Option.some.injEq, Ordering.isLE_iff_ne_gt,
      Ordering.then_eq_lt, Ordering.then_eq_gt, compare_lt_iff_lt, compare_gt_iff_gt,
      compare_eq_iff_eq]
    rw [← not_lt]
    unfold absValue
    rw [hlt]
    constructor
    · rfl
    · omega

/-- A bound between two neighbouring doubles is as good as the larger of them. -/
private theorem le_absValue_iff {x : Float} {m : ℕ} {q : ℤ} {r : ℚ}
    (hfinite : magnitudeBits x < 2047 * 2 ^ 52) (hform : IsNormalForm m q)
    (hprev : IsNormalForm (m - 1) q) (hlow : (↑(m - 1) * 2 ^ q : ℚ) < r) (hhigh : r ≤ m * 2 ^ q) :
    (m * 2 ^ q : ℚ) ≤ absValue x ↔ r ≤ absValue x := by
  constructor
  · exact hhigh.trans
  intro hr
  have hprevPos : (0 : ℚ) < ↑(m - 1) * 2 ^ q :=
    mul_pos (Nat.cast_pos.2 hprev.pos) (zpow_pos two_pos q)
  have hpos : 0 < absValue x := hprevPos.trans (hlow.trans_le hr)
  have hzero : magnitudeBits x ≠ 0 := mt (absValue_eq_zero_iff hfinite).2 hpos.ne'
  have hx := normalForm_of_finite hzero hfinite
  -- no form lies between two neighbours
  have habove := (hprev.lt_iff hx).1 (hlow.trans_le hr)
  by_contra hlt
  have hbelow := (hx.lt_iff hform).1 (not_le.1 hlt)
  omega

/-! ## The range of plain notation -/

/-- Both zeros are equal to zero, and nothing else is. -/
private theorem beq_zero_iff (x : Float) : (x == 0.0) = true ↔ magnitudeBits x = 0 := by
  show x.toModel.unpack.beq (0.0 : Float).toModel.unpack = true ↔ _
  have hzero : (0.0 : Float).toModel.unpack = .zero .positive := rfl
  rw [hzero, unpack_eq]
  split
  · next h => exact iff_of_true rfl h
  · next h =>
    -- of either sign, no other class of doubles compares equal to zero
    apply iff_of_false _ h
    cases sign x <;> split
    · exact Bool.false_ne_true
    · split <;> exact Bool.false_ne_true
    · exact Bool.false_ne_true
    · split <;> exact Bool.false_ne_true

/-- A finite value is written without an exponent exactly if it is zero or its magnitude is at least
    a thousandth and below ten million. -/
theorem inPlainRange_iff {x : Float} (hfinite : magnitudeBits x < 2047 * 2 ^ 52) :
    Decimal.inPlainRange x = true ↔
      absValue x = 0 ∨ 1 / 1000 ≤ absValue x ∧ absValue x < 10 ^ 7 := by
  have hthousandth : (1e-3 : Float).toModel.unpack =
      .finite .positive 0x10624DD2F1A9FC (-62) (by decide) := rfl
  have hmillions : (1e7 : Float).toModel.unpack =
      .finite .positive 0x1312D000000000 (-29) (by decide) := rfl
  -- the double nearest to a thousandth is the next one above it
  have hlow : (1e-3 ≤ x.abs) ↔ 1 / 1000 ≤ absValue x := by
    have hform : IsNormalForm 0x10624DD2F1A9FC (-62) := by constructor <;> omega
    rw [(abs_lt_iff hfinite hthousandth hform).2]
    apply le_absValue_iff hfinite hform
    · constructor <;> omega
    · norm_num
    · norm_num
  -- ten million is a double, so the bound is exact
  have hhigh : x.abs < 1e7 ↔ absValue x < 10 ^ 7 := by
    have hform : IsNormalForm 0x1312D000000000 (-29) := by constructor <;> omega
    have hvalue : ((0x1312D000000000 : ℕ) * 2 ^ (-29 : ℤ) : ℚ) = 10 ^ 7 := by norm_num
    rw [(abs_lt_iff hfinite hmillions hform).1, hvalue]
  unfold Decimal.inPlainRange
  rw [Bool.or_eq_true, Bool.and_eq_true, decide_eq_true_eq, decide_eq_true_eq, beq_zero_iff, hlow,
    hhigh, absValue_eq_zero_iff hfinite]

end DeskCalc.Binary64
