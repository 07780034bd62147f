import DeskCalc.Decimal.Binary64
import Mathlib.Tactic.Linarith
import Mathlib.Tactic.Positivity
import Mathlib.Tactic.Ring

/-!
# Rounding to the nearest double

A finite double that is not zero is `m · 2 ^ q` with a significand of 53 bits, or of fewer at the
smallest exponent.  The rational numbers that are nearest to it make up an interval around it, which
is shorter below a power of two; the ends belong to it when `m` is even.  Every quotient in this
interval is rounded to the bits of the double.

## Key results

- `floorLog2_spec`: the power of two at or below a quotient
- `roundQuotient_eq`: the natural number nearest to a quotient
- `normalForm_of_bits`: the significand and the exponent that the bits of a double stand for
- `RoundsTo.abs_sub_le`: no double is nearer to a number than the one in whose interval it lies
- `nearestBits_eq`: a quotient in the interval of a double is rounded to this double
-/

namespace DeskCalc.Binary64

/-! ## Powers with an integral exponent -/

/-- A power is a quotient of powers with natural exponents, one of which is zero. -/
theorem zpow_eq_div {b : ℚ} (hb : b ≠ 0) (e : ℤ) : b ^ e = b ^ e.toNat / b ^ (-e).toNat := by
  conv_lhs => rw [← Int.toNat_sub_toNat_neg e]
  rw [zpow_sub₀ hb, zpow_natCast, zpow_natCast]

/-- A power with an integral exponent, brought to the denominator of its negative part. -/
theorem zpow_mul_pow_neg {b : ℚ} (hb : b ≠ 0) (e : ℤ) :
    b ^ e * b ^ (-e).toNat = b ^ e.toNat := by
  rw [zpow_eq_div hb, div_mul_cancel₀]
  exact pow_ne_zero _ hb

/-- Scaling by a power of two, on the side on which its exponent is natural. -/
private theorem scaled_quotient (num den : ℕ) (e : ℤ) :
    ((num * Nat.pow 2 (-e).toNat : ℕ) : ℚ) / (den * Nat.pow 2 e.toNat : ℕ) =
      num / den / 2 ^ e := by
  rw [zpow_eq_div two_ne_zero]
  simp only [Nat.pow_eq, Nat.cast_mul, Nat.cast_pow, Nat.cast_ofNat]
  rw [div_div_eq_mul_div, div_mul_eq_mul_div, div_div]

/-! ## The exponent of a quotient -/

/-- `Nat.log2` is the exponent of the greatest power of two that is not above the number. -/
private theorem two_pow_log2_le {n : ℕ} (h : 0 < n) :
    (2 : ℚ) ^ (n.log2 : ℤ) ≤ n ∧ (n : ℚ) < 2 ^ ((n.log2 : ℤ) + 1) := by
  have hlow : 2 ^ n.log2 ≤ n := Nat.log2_self_le h.ne'
  have hhigh : n < 2 ^ (n.log2 + 1) := Nat.lt_log2_self
  constructor
  · rw [zpow_natCast]
    exact_mod_cast hlow
  · exact_mod_cast hhigh

/-- `floorLog2` is the exponent of the greatest power of two that is not above the quotient. -/
theorem floorLog2_spec {num den : ℕ} (hnum : 0 < num) (hden : 0 < den) :
    (2 : ℚ) ^ floorLog2 num den ≤ num / den ∧ (num / den : ℚ) < 2 ^ (floorLog2 num den + 1) := by
  obtain ⟨hnlow, hnhigh⟩ := two_pow_log2_le hnum
  obtain ⟨hdlow, hdhigh⟩ := two_pow_log2_le hden
  have hden' : (0 : ℚ) < den := Nat.cast_pos.2 hden
  set guess : ℤ := (num.log2 : ℤ) - den.log2 with hguess
  -- the guess is right or one too large
  have hlow : (2 : ℚ) ^ (guess - 1) ≤ num / den := by
    rw [le_div_iff₀ hden']
    calc (2 : ℚ) ^ (guess - 1) * den
        ≤ 2 ^ (guess - 1) * 2 ^ ((den.log2 : ℤ) + 1) :=
          mul_le_mul_of_nonneg_left hdhigh.le (zpow_pos two_pos _).le
      _ = 2 ^ (num.log2 : ℤ) := by
          rw [← zpow_add₀ (two_ne_zero' ℚ), hguess]
          congr 1
          ring
      _ ≤ num := hnlow
  have hhigh : (num / den : ℚ) < 2 ^ (guess + 1) := by
    rw [div_lt_iff₀ hden']
    calc (num : ℚ) < 2 ^ ((num.log2 : ℤ) + 1) := hnhigh
      _ = 2 ^ (guess + 1) * 2 ^ (den.log2 : ℤ) := by
          rw [← zpow_add₀ (two_ne_zero' ℚ), hguess]
          congr 1
          ring
      _ ≤ 2 ^ (guess + 1) * den := mul_le_mul_of_nonneg_left hdlow (zpow_pos two_pos _).le
  -- the test compares with a power of two, on the side on which the exponent is natural
  have htest : num * Nat.pow 2 (-guess).toNat < den * Nat.pow 2 guess.toNat ↔
      (num / den : ℚ) < 2 ^ guess := by
    have hscaled := scaled_quotient num den guess
    have hpos : (0 : ℚ) < (den * Nat.pow 2 guess.toNat : ℕ) := by
      rw [Nat.pow_eq]
      positivity
    rw [← div_lt_one (zpow_pos (two_pos : (0 : ℚ) < 2) guess), ← hscaled, div_lt_one hpos,
      Nat.cast_lt]
  unfold floorLog2
  dsimp only
  rw [← hguess]
  split
  · next h =>
    rw [sub_add_cancel]
    exact ⟨hlow, htest.1 h⟩
  · next h => exact ⟨not_lt.1 fun hlt => h (htest.2 hlt), hhigh⟩

/-! ## The natural number nearest to a quotient -/

/-- A quotient that is at most one half away from `n` is rounded to `n`, if `n` is even or the
    quotient is nearer. -/
theorem roundQuotient_eq {a b n : ℕ} (hb : 0 < b) (hlow : (n : ℚ) - 1 / 2 ≤ a / b)
    (hhigh : (a / b : ℚ) ≤ n + 1 / 2)
    (hstrict : n % 2 = 1 → (n : ℚ) - 1 / 2 < a / b ∧ (a / b : ℚ) < n + 1 / 2) :
    roundQuotient a b = n := by
  have hb' : (0 : ℚ) < b := Nat.cast_pos.2 hb
  -- the same bounds between natural numbers
  have hbelow : 2 * (n * b) ≤ 2 * a + b := by
    rw [le_div_iff₀ hb'] at hlow
    have h : (2 : ℚ) * (n * b) ≤ 2 * a + b := by linarith
    exact_mod_cast h
  have habove : 2 * a ≤ 2 * (n * b) + b := by
    rw [div_le_iff₀ hb'] at hhigh
    have h : (2 : ℚ) * a ≤ 2 * (n * b) + b := by linarith
    exact_mod_cast h
  have hodd : n % 2 = 1 → 2 * (n * b) < 2 * a + b ∧ 2 * a < 2 * (n * b) + b := by
    intro hn
    obtain ⟨hlow, hhigh⟩ := hstrict hn
    rw [lt_div_iff₀ hb'] at hlow
    rw [div_lt_iff₀ hb'] at hhigh
    have h : (2 : ℚ) * (n * b) < 2 * a + b := by linarith
    have h' : (2 : ℚ) * a < 2 * (n * b) + b := by linarith
    exact ⟨by exact_mod_cast h, by exact_mod_cast h'⟩
  have hrest : a % b < b := Nat.mod_lt a hb
  have hdiv : a = a / b * b + a % b := by rw [mul_comm]; exact (Nat.div_add_mod a b).symm
  unfold roundQuotient
  dsimp only
  generalize a / b = low at hdiv ⊢
  generalize a % b = rest at hdiv hrest ⊢
  subst hdiv
  -- `n` is the whole part of the quotient or the number behind it
  have hn : n = low ∨ n = low + 1 := by
    have hle : n < low + 2 := by
      by_contra hgt
      have := Nat.mul_le_mul_right b (not_lt.1 hgt)
      rw [Nat.add_mul] at this
      omega
    have hge : low ≤ n := by
      by_contra hlt
      have := Nat.mul_le_mul_right b (Nat.succ_le_of_lt (not_le.1 hlt))
      rw [Nat.succ_mul] at this
      omega
    omega
  rcases hn with rfl | rfl
  · split
    · rfl
    · split
      · omega
      · omega
  · -- the products of `low + 1`, in terms of those of `low`
    have hnext : (low + 1) * b = low * b + b := Nat.succ_mul low b
    rw [hnext] at hbelow habove hodd
    split
    · omega
    · split
      · rfl
      · omega

/-- The same on the side of a power of two on which its exponent is natural. -/
private theorem roundQuotient_scaled {num den n : ℕ} {e : ℤ} (hden : 0 < den)
    (hlow : ((n : ℚ) - 1 / 2) * 2 ^ e ≤ num / den) (hhigh : (num / den : ℚ) ≤ (n + 1 / 2) * 2 ^ e)
    (hstrict : n % 2 = 1 →
      ((n : ℚ) - 1 / 2) * 2 ^ e < num / den ∧ (num / den : ℚ) < (n + 1 / 2) * 2 ^ e) :
    roundQuotient (num * Nat.pow 2 (-e).toNat) (den * Nat.pow 2 e.toNat) = n := by
  have hpos : (0 : ℚ) < 2 ^ e := zpow_pos two_pos e
  apply roundQuotient_eq
  · exact Nat.mul_pos hden (Nat.pow_pos two_pos)
  · rwa [scaled_quotient, le_div_iff₀ hpos]
  · rwa [scaled_quotient, div_le_iff₀ hpos]
  · intro hn
    rw [scaled_quotient, lt_div_iff₀ hpos, div_lt_iff₀ hpos]
    exact hstrict hn

/-! ## The interval of a double -/

/-- What makes `m · 2 ^ q` the form of a finite double that is not zero: a significand of 53 bits,
    or of fewer bits at the smallest exponent. -/
structure IsNormalForm (m : ℕ) (q : ℤ) : Prop where
  pos : 0 < m
  lt : m < 2 ^ 53
  le : -1074 ≤ q
  full : 2 ^ 52 ≤ m ∨ q = -1074

/-- Without a sign bit the exponent is what stands in front of the significand. -/
theorem biasedExponent_of_lt {bits : ℕ} (h : bits < 2 ^ 63) :
    biasedExponent bits = bits / 2 ^ 52 := by
  unfold biasedExponent
  rw [Nat.pow_eq, Nat.pow_eq]
  omega

/-- The form that the bits of a finite double that is not zero stand for, and how it is written into
    the bits. -/
theorem normalForm_of_bits {bits : ℕ} (hpos : 0 < bits) (hfinite : bits < 2047 * 2 ^ 52) :
    IsNormalForm (significand bits) (binaryExponent bits) ∧
      (binaryExponent bits + 1074).toNat * 2 ^ 52 + significand bits = bits := by
  unfold significand binaryExponent
  rw [biasedExponent_of_lt (by omega), Nat.pow_eq]
  split
  · -- a subnormal number stores its significand only
    constructor
    · constructor <;> omega
    · omega
  · constructor
    · constructor <;> omega
    · omega

/-- Doubles are ordered by the exponent first, and then by the significand. -/
theorem IsNormalForm.lt_iff {m m' : ℕ} {q q' : ℤ} (h : IsNormalForm m q)
    (h' : IsNormalForm m' q') :
    (m * 2 ^ q : ℚ) < m' * 2 ^ q' ↔ q < q' ∨ q = q' ∧ m < m' := by
  -- at a larger exponent the significand has all its bits, so it makes up for any other
  have hexp {m m' : ℕ} {q q' : ℤ} (h : IsNormalForm m q) (h' : IsNormalForm m' q') (hlt : q < q') :
      (m * 2 ^ q : ℚ) < m' * 2 ^ q' := by
    have hq := h.le
    have hm : (m : ℚ) < 2 ^ 53 := by exact_mod_cast h.lt
    have hm' : (2 : ℚ) ^ 52 ≤ m' := by exact_mod_cast h'.full.resolve_right (by omega)
    calc (m * 2 ^ q : ℚ) < 2 ^ 53 * 2 ^ q := mul_lt_mul_of_pos_right hm (zpow_pos two_pos q)
      _ = 2 ^ 52 * 2 ^ (q + 1) := by rw [zpow_add₀ (two_ne_zero' ℚ)]; ring
      _ ≤ 2 ^ 52 * 2 ^ q' := by
        apply mul_le_mul_of_nonneg_left _ (by positivity)
        exact zpow_le_zpow_right₀ one_le_two hlt
      _ ≤ m' * 2 ^ q' := mul_le_mul_of_nonneg_right hm' (zpow_pos two_pos q').le
  rcases lt_trichotomy q q' with hlt | rfl | hgt
  · exact iff_of_true (hexp h h' hlt) (Or.inl hlt)
  · rw [mul_lt_mul_iff_left₀ (zpow_pos two_pos q), Nat.cast_lt]
    simp only [lt_irrefl, false_or, true_and]
  · exact iff_of_false (hexp h' h hgt).not_gt (by omega)

/-- The lower end of the interval around `m · 2 ^ q`, in units of `2 ^ q`: halfway to the next
    smaller double, which is only half as far away below a power of two. -/
def lowEdge (m : ℕ) (q : ℤ) : ℚ :=
  if m = 2 ^ 52 ∧ -1074 < q then m - 1 / 4 else m - 1 / 2

/-- That `r` lies in the interval of the numbers to which `m · 2 ^ q` is the nearest double, the
    even significand being preferred at its ends. -/
structure RoundsTo (m : ℕ) (q : ℤ) (r : ℚ) : Prop where
  low : lowEdge m q * 2 ^ q ≤ r
  high : r ≤ (m + 1 / 2) * 2 ^ q
  strict : m % 2 = 1 → lowEdge m q * 2 ^ q < r ∧ r < (m + 1 / 2) * 2 ^ q

/-- The lower end of the interval is at most half a unit away. -/
theorem lowEdge_ge (m : ℕ) (q : ℤ) : (m : ℚ) - 1 / 2 ≤ lowEdge m q := by
  unfold lowEdge
  split
  · linarith
  · exact le_rfl

/-- The lower end of the interval is not above the double. -/
private theorem lowEdge_le (m : ℕ) (q : ℤ) : lowEdge m q ≤ m := by
  unfold lowEdge
  split
  · linarith
  · linarith

/-- Every double is nearest to its own value. -/
theorem RoundsTo.self (m : ℕ) (q : ℤ) : RoundsTo m q (m * 2 ^ q) := by
  have hpos : (0 : ℚ) < 2 ^ q := zpow_pos two_pos q
  have hhigh : (m : ℚ) < m + 1 / 2 := by linarith
  constructor
  · exact mul_le_mul_of_nonneg_right (lowEdge_le m q) hpos.le
  · exact mul_le_mul_of_nonneg_right hhigh.le hpos.le
  · intro hodd
    have hlow : lowEdge m q < m := by
      unfold lowEdge
      split
      · linarith
      · linarith
    exact ⟨mul_lt_mul_of_pos_right hlow hpos, mul_lt_mul_of_pos_right hhigh hpos⟩

/-- A larger double is at least one unit away. -/
private theorem IsNormalForm.add_one_le {m m' : ℕ} {q q' : ℤ} (h : IsNormalForm m q)
    (h' : IsNormalForm m' q') (hlt : (m * 2 ^ q : ℚ) < m' * 2 ^ q') :
    ((m + 1) * 2 ^ q : ℚ) ≤ m' * 2 ^ q' := by
  have hpos : (0 : ℚ) < 2 ^ q := zpow_pos two_pos q
  rcases (h.lt_iff h').1 hlt with hq | ⟨rfl, hm⟩
  · -- the exponent is larger, so the number is not below the next power of two
    have hle := h.le
    have hm : (m : ℚ) + 1 ≤ 2 ^ 53 := by exact_mod_cast h.lt
    have hm' : (2 : ℚ) ^ 52 ≤ m' := by exact_mod_cast h'.full.resolve_right (by omega)
    calc ((m + 1) * 2 ^ q : ℚ) ≤ 2 ^ 53 * 2 ^ q := mul_le_mul_of_nonneg_right hm hpos.le
      _ = 2 ^ 52 * 2 ^ (q + 1) := by rw [zpow_add₀ (two_ne_zero' ℚ)]; ring
      _ ≤ 2 ^ 52 * 2 ^ q' := by
        apply mul_le_mul_of_nonneg_left _ (by positivity)
        exact zpow_le_zpow_right₀ one_le_two hq
      _ ≤ m' * 2 ^ q' := mul_le_mul_of_nonneg_right hm' (zpow_pos two_pos q').le
  · have hm' : (m : ℚ) + 1 ≤ m' := by exact_mod_cast hm
    exact mul_le_mul_of_nonneg_right hm' hpos.le

/-- A smaller double is at least twice as far away as the lower end of the interval. -/
private theorem IsNormalForm.le_lowEdge {m m' : ℕ} {q q' : ℤ} (h : IsNormalForm m q)
    (h' : IsNormalForm m' q') (hlt : (m' * 2 ^ q' : ℚ) < m * 2 ^ q) :
    (m' * 2 ^ q' : ℚ) ≤ (2 * lowEdge m q - m) * 2 ^ q := by
  have hpos : (0 : ℚ) < 2 ^ q := zpow_pos two_pos q
  have hnext := h'.add_one_le h hlt
  rcases (h'.lt_iff h).1 hlt with hq | ⟨rfl, hm⟩
  · have hle := h'.le
    have hm : 2 ^ 52 ≤ m := h.full.resolve_right (by omega)
    have hm' : (m' : ℚ) ≤ 2 ^ 53 - 1 := by
      have := h'.lt
      rw [le_sub_iff_add_le]
      exact_mod_cast this
    -- the smaller double has a smaller exponent, so its unit is at most half as large
    have hhalf : (2 : ℚ) ^ q = 2 ^ (q - 1) * 2 := by
      rw [← zpow_add_one₀ two_ne_zero, sub_add_cancel]
    have hedge : (2 : ℚ) ^ 52 - 1 / 2 ≤ 2 * lowEdge m q - m := by
      unfold lowEdge
      split
      · next heq => rw [heq.1]; push_cast; linarith
      · next hne =>
        -- a significand above the power of two leaves room for a whole unit
        have hm1 : (2 : ℚ) ^ 52 + 1 ≤ m := by
          have : 2 ^ 52 + 1 ≤ m := by omega
          exact_mod_cast this
        linarith
    calc (m' * 2 ^ q' : ℚ) ≤ (2 ^ 53 - 1) * 2 ^ (q - 1) := by
          apply mul_le_mul hm' _ (zpow_pos two_pos q').le (by norm_num)
          exact zpow_le_zpow_right₀ one_le_two (by omega)
      _ = (2 ^ 52 - 1 / 2) * 2 ^ q := by rw [hhalf]; ring
      _ ≤ (2 * lowEdge m q - m) * 2 ^ q := mul_le_mul_of_nonneg_right hedge hpos.le
  · have hedge := lowEdge_ge m q'
    have hm' : (m' : ℚ) + 1 ≤ m := by exact_mod_cast hm
    apply mul_le_mul_of_nonneg_right _ hpos.le
    linarith

/-- No double is nearer to a number than the one in whose interval it lies. -/
theorem RoundsTo.abs_sub_le {m m' : ℕ} {q q' : ℤ} {r : ℚ} (h : RoundsTo m q r)
    (hform : IsNormalForm m q) (hform' : IsNormalForm m' q') :
    |m * 2 ^ q - r| ≤ |m' * 2 ^ q' - r| := by
  have hlow := h.low
  have hhigh := h.high
  -- the other double is farther away on the left, the same, or farther away on the right
  rcases lt_trichotomy (m' * 2 ^ q' : ℚ) (m * 2 ^ q) with hlt | heq | hgt
  · have hfar := hform.le_lowEdge hform' hlt
    have hright : r - m' * 2 ^ q' ≤ |m' * 2 ^ q' - r| := by
      rw [abs_sub_comm]
      exact le_abs_self _
    apply le_trans _ hright
    rw [abs_le]
    constructor
    · linarith
    · linarith
  · rw [heq]
  · have hfar := hform.add_one_le hform' hgt
    apply le_trans _ (le_abs_self _)
    rw [abs_le]
    constructor
    · linarith
    · linarith

/-- The exponent with which a quotient in the interval of a double is rounded is that of the double,
    or one less for a quotient below a power of two that is the double. -/
private theorem roundingExponent_cases {m num den : ℕ} {q : ℤ} (hform : IsNormalForm m q)
    (hnum : 0 < num) (hden : 0 < den) (h : RoundsTo m q (num / den)) :
    max (floorLog2 num den - 52) (-1074) = q ∨
      max (floorLog2 num den - 52) (-1074) = q - 1 ∧ m = 2 ^ 52 ∧ -1074 < q ∧
        (num / den : ℚ) < 2 ^ 52 * 2 ^ q := by
  obtain ⟨hklow, hkhigh⟩ := floorLog2_spec hnum hden
  set k := floorLog2 num den
  have hpos : (0 : ℚ) < 2 ^ q := zpow_pos two_pos q
  -- the quotient has no more bits than the significand
  have hle : k < q + 53 := by
    apply (zpow_lt_zpow_iff_right₀ (one_lt_two : (1 : ℚ) < 2)).1
    have hm : (m : ℚ) + 1 ≤ 2 ^ 53 := by exact_mod_cast hform.lt
    calc (2 : ℚ) ^ k ≤ num / den := hklow
      _ ≤ (m + 1 / 2) * 2 ^ q := h.high
      _ < 2 ^ 53 * 2 ^ q := mul_lt_mul_of_pos_right (by linarith) hpos
      _ = 2 ^ (q + 53) := by rw [zpow_add₀ (two_ne_zero' ℚ), mul_comm]; norm_cast
  have hq := hform.le
  by_cases hmin : q = -1074
  · left
    omega
  · have hm : 2 ^ 52 ≤ m := hform.full.resolve_right hmin
    have hm' : (2 : ℚ) ^ 52 ≤ m := by exact_mod_cast hm
    -- nor has it fewer than one less
    have hge : q + 51 < k + 1 := by
      apply (zpow_lt_zpow_iff_right₀ (one_lt_two : (1 : ℚ) < 2)).1
      calc (2 : ℚ) ^ (q + 51) = 2 ^ 51 * 2 ^ q := by
            rw [zpow_add₀ (two_ne_zero' ℚ), mul_comm]
            norm_cast
        _ ≤ (m - 1 / 2) * 2 ^ q := by
          apply mul_le_mul_of_nonneg_right _ hpos.le
          linarith
        _ ≤ lowEdge m q * 2 ^ q := mul_le_mul_of_nonneg_right (lowEdge_ge m q) hpos.le
        _ ≤ num / den := h.low
        _ < 2 ^ (k + 1) := hkhigh
    by_cases hk : k = q + 51
    · right
      have hbelow : (num / den : ℚ) < 2 ^ 52 * 2 ^ q := by
        calc (num / den : ℚ) < 2 ^ (k + 1) := hkhigh
          _ = 2 ^ 52 * 2 ^ q := by
            rw [hk, show q + 51 + 1 = q + 52 by ring, zpow_add₀ (two_ne_zero' ℚ), mul_comm]
            norm_cast
      refine ⟨by omega, ?_, by omega, hbelow⟩
      -- a larger significand keeps its interval above the power of two
      have hedge : lowEdge m q < 2 ^ 52 := lt_of_mul_lt_mul_right (h.low.trans_lt hbelow) hpos.le
      by_contra hne
      have hm1 : (2 : ℚ) ^ 52 + 1 ≤ m := by exact_mod_cast Nat.lt_of_le_of_ne hm (Ne.symm hne)
      have := lowEdge_ge m q
      linarith
    · left
      omega

/-- A quotient in the interval of a finite double is rounded to the bits of this double: the
    significand, added to the exponents below `q` that take the implicit bit. -/
theorem nearestBits_eq {m num den : ℕ} {q : ℤ} (hform : IsNormalForm m q) (hnum : 0 < num)
    (hden : 0 < den) (h : RoundsTo m q (num / den))
    (hfinite : (q + 1074).toNat * 2 ^ 52 + m ≤ 2047 * 2 ^ 52) :
    nearestBits num den = (q + 1074).toNat * 2 ^ 52 + m := by
  have hpos : (0 : ℚ) < 2 ^ q := zpow_pos two_pos q
  unfold nearestBits
  rw [if_neg hnum.ne']
  dsimp only
  rcases roundingExponent_cases hform hnum hden h with hexp | ⟨hexp, rfl, hmin, hbelow⟩
  · have hround : roundQuotient (num * Nat.pow 2 (-q).toNat) (den * Nat.pow 2 q.toNat) = m := by
      apply roundQuotient_scaled hden _ h.high
      · intro hodd
        obtain ⟨hlow, hhigh⟩ := h.strict hodd
        have hedge := mul_le_mul_of_nonneg_right (lowEdge_ge m q) hpos.le
        exact ⟨hedge.trans_lt hlow, hhigh⟩
      · exact (mul_le_mul_of_nonneg_right (lowEdge_ge m q) hpos.le).trans h.low
    rw [hexp, hround]
    exact min_eq_left hfinite
  · -- one exponent below, the quotient rounds up to the carry out of the significand
    have hhalf : (2 : ℚ) ^ q = 2 ^ (q - 1) * 2 := by
      rw [← zpow_add_one₀ two_ne_zero, sub_add_cancel]
    have hlow := h.low
    rw [lowEdge, if_pos ⟨rfl, hmin⟩, hhalf] at hlow
    rw [hhalf] at hbelow
    have hpos' : (0 : ℚ) < 2 ^ (q - 1) := zpow_pos two_pos (q - 1)
    have hround : roundQuotient (num * Nat.pow 2 (-(q - 1)).toNat)
        (den * Nat.pow 2 (q - 1).toNat) = 2 ^ 53 := by
      apply roundQuotient_scaled hden
      · push_cast at hlow ⊢
        linarith
      · push_cast
        linarith
      · intro hodd
        norm_num at hodd
    rw [hexp, hround]
    have hq := hform.le
    rw [Nat.pow_eq]
    omega

end DeskCalc.Binary64
