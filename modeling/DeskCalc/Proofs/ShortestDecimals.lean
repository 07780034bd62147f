import DeskCalc.Decimal.Shortest
import DeskCalc.Proofs.Rounding
import Mathlib.Tactic.FieldSimp

/-!
# Shortest decimals read back

The search for the shortest decimal of a double ends at a point of a decimal grid that lies in the
interval of the double, or gives up and takes the double with all its digits.  Either way the
decimal is rounded to the double it was found for.

## Key results

- `roundsTo_of_search`: a decimal that is found lies in the interval that was searched
- `abs_sub_shortest_le`: no other double is nearer to the shortest decimal of a double
- `nearestBits_shortest`: a quotient with the value of the shortest decimal of a double is rounded
  to its bits
-/

namespace DeskCalc.Decimal

open Binary64

/-- The number that a decimal stands for. -/
def value (d : Decimal) : ℚ :=
  d.digits * 10 ^ d.exponent

/-! ## The search -/

namespace Neighbourhood

/-- The scale on which both the grid of `10 ^ k` and the unit of the neighbourhood are whole. -/
def scale (n : Neighbourhood) (k : ℤ) : ℕ :=
  2 ^ (-n.exponent).toNat * 10 ^ (-k).toNat

/-- The common scale is positive, so it can be cancelled. -/
private theorem scale_pos (n : Neighbourhood) (k : ℤ) : (0 : ℚ) < n.scale k := by
  unfold scale
  positivity

/-- `gridStep` is the step of the grid on the common scale. -/
private theorem gridStep_eq (n : Neighbourhood) (k : ℤ) :
    (n.gridStep k : ℚ) = 10 ^ k * n.scale k := by
  have h := zpow_mul_pow_neg (b := 10) (by norm_num) k
  simp only [gridStep, scale, Nat.pow_eq, Nat.cast_mul, Nat.cast_pow, Nat.cast_ofNat]
  rw [← h]
  ring

/-- `unit` is the unit of the neighbourhood on the common scale. -/
private theorem unit_eq (n : Neighbourhood) (k : ℤ) :
    (n.unit k : ℚ) = 2 ^ n.exponent * n.scale k := by
  have h := zpow_mul_pow_neg (b := 2) two_ne_zero n.exponent
  simp only [unit, scale, Nat.pow_eq, Nat.cast_mul, Nat.cast_pow, Nat.cast_ofNat]
  rw [← h]
  ring

/-- Multiples of the unit are compared with grid points on the common scale. -/
private theorem mul_unit_le_iff (n : Neighbourhood) (k : ℤ) (x c : ℕ) :
    x * n.unit k ≤ c * n.gridStep k ↔ (x * 2 ^ n.exponent : ℚ) ≤ c * 10 ^ k := by
  rw [← mul_le_mul_iff_left₀ (n.scale_pos k), mul_assoc, mul_assoc, ← unit_eq, ← gridStep_eq]
  norm_cast

/-- The comparison of `mul_unit_le_iff` the other way round. -/
private theorem le_mul_unit_iff (n : Neighbourhood) (k : ℤ) (x c : ℕ) :
    c * n.gridStep k ≤ x * n.unit k ↔ (c * 10 ^ k : ℚ) ≤ x * 2 ^ n.exponent := by
  rw [← mul_le_mul_iff_left₀ (n.scale_pos k), mul_assoc, mul_assoc, ← unit_eq, ← gridStep_eq]
  norm_cast

/-- A grid point that passes the test lies between the ends, and strictly if these are left out. -/
private theorem bounds_of_holds {n : Neighbourhood} {k : ℤ} {c : ℕ} (h : n.holds k c = true) :
    n.low * 2 ^ n.exponent ≤ (c * 10 ^ k : ℚ) ∧ (c * 10 ^ k : ℚ) ≤ n.high * 2 ^ n.exponent ∧
      (n.closed = false → n.low * 2 ^ n.exponent < (c * 10 ^ k : ℚ) ∧
        (c * 10 ^ k : ℚ) < n.high * 2 ^ n.exponent) := by
  unfold holds at h
  dsimp only at h
  -- closed intervals hold their ends
  split at h
  · next hclosed =>
    simp only [Bool.and_eq_true, decide_eq_true_eq] at h
    have hlow := (n.mul_unit_le_iff k n.low c).1 h.1
    have hhigh := (n.le_mul_unit_iff k n.high c).1 h.2
    exact ⟨hlow, hhigh, fun hopen => absurd (hopen.symm.trans hclosed) Bool.false_ne_true⟩
  · simp only [Bool.and_eq_true, decide_eq_true_eq] at h
    have hlow := lt_iff_lt_of_le_iff_le (n.le_mul_unit_iff k n.low c) |>.1 h.1
    have hhigh := lt_iff_lt_of_le_iff_le (n.mul_unit_le_iff k n.high c) |>.1 h.2
    exact ⟨hlow.le, hhigh.le, fun _ => ⟨hlow, hhigh⟩⟩

/-- The grid point that `gridPoint?` picks has passed the test. -/
private theorem holds_of_gridPoint? {n : Neighbourhood} {k : ℤ} {c : ℕ}
    (h : n.gridPoint? k = some c) :
    n.holds k c = true := by
  unfold gridPoint? at h
  dsimp only at h
  -- both neighbours of the middle on the grid are tested; whichever is picked has passed
  split at h
  · next hbelow =>
    split at h
    · next habove =>
      simp only [Bool.and_eq_true] at habove
      cases h
      exact habove.1
    · cases h
      exact hbelow
  · split at h
    · next habove =>
      cases h
      exact habove
    · cases h

/-- Whatever the search finds passed the test on the grid on which it was found. -/
private theorem holds_of_search {n : Neighbourhood} {fuel : ℕ} {k : ℤ} {d : Decimal}
    (h : n.search fuel k = some d) : n.holds d.exponent d.digits = true := by
  -- by induction on the fuel, which is used up by one for each finer grid
  induction fuel generalizing k with
  | zero => cases h
  | succ fuel ih =>
    rw [search] at h
    split at h
    · next c hpoint =>
      cases h
      exact holds_of_gridPoint? hpoint
    · exact ih h

end Neighbourhood

/-- The neighbourhood in quarters is the interval of the double. -/
private theorem roundsTo_of_holds {m : ℕ} {q k : ℤ} {c : ℕ} (hm : 0 < m)
    (h : (neighbourhood m q).holds k c = true) : RoundsTo m q (c * 10 ^ k) := by
  obtain ⟨hlow, hhigh, hstrict⟩ := Neighbourhood.bounds_of_holds h
  -- the neighbourhood counts in quarters of the unit of the double
  have hquarter : (2 : ℚ) ^ (q - 2) = 2 ^ q / 4 := by
    rw [zpow_sub₀ two_ne_zero]
    norm_num
  -- below a power of two the doubles lie twice as dense, so the low edge has two cases
  have hlowEdge : ((neighbourhood m q).low : ℚ) * 2 ^ (q - 2) = lowEdge m q * 2 ^ q := by
    have h1 : 1 ≤ 4 * m := by omega
    have h2 : 2 ≤ 4 * m := by omega
    rw [hquarter]
    unfold neighbourhood lowEdge
    simp only [Nat.pow_eq]
    split
    · push_cast [Nat.cast_sub h1]
      ring
    · push_cast [Nat.cast_sub h2]
      ring
  have hhighEdge : ((neighbourhood m q).high : ℚ) * 2 ^ (q - 2) = (m + 1 / 2) * 2 ^ q := by
    rw [hquarter]
    unfold neighbourhood
    push_cast
    ring
  have hexponent : (neighbourhood m q).exponent = q - 2 := rfl
  rw [hexponent] at hlow hhigh hstrict
  rw [hlowEdge] at hlow hstrict
  rw [hhighEdge] at hhigh hstrict
  constructor
  · exact hlow
  · exact hhigh
  · intro hodd
    apply hstrict
    show decide (m % 2 = 0) = false
    rw [hodd]
    rfl

/-- A decimal that the search in the neighbourhood of a double finds lies in its interval. -/
theorem roundsTo_of_search {m fuel : ℕ} {q k : ℤ} {d : Decimal} (hm : 0 < m)
    (h : (neighbourhood m q).search fuel k = some d) : RoundsTo m q d.value :=
  roundsTo_of_holds hm (Neighbourhood.holds_of_search h)

/-- With all its digits a decimal is the number that it was made from. -/
private theorem value_exact (m : ℕ) (q : ℤ) : (exact m q).value = m * 2 ^ q := by
  unfold exact value
  split
  · next hq =>
    simp only [Nat.pow_eq, Nat.cast_mul, Nat.cast_pow, Nat.cast_ofNat, zpow_zero, mul_one]
    rw [← zpow_natCast, Int.toNat_of_nonneg hq]
  · next hq =>
    -- the fives cancel those of the powers of ten
    have hneg : (((-q).toNat : ℕ) : ℤ) = -q := Int.toNat_of_nonneg (by omega)
    have hten : (10 : ℚ) ^ q = 2 ^ q * 5 ^ q := by rw [← mul_zpow]; norm_num
    have hfive : (5 : ℚ) ^ q ≠ 0 := zpow_ne_zero q (by norm_num)
    simp only [Nat.pow_eq, Nat.cast_mul, Nat.cast_pow, Nat.cast_ofNat]
    rw [← zpow_natCast, hneg, hten, zpow_neg]
    field_simp

/-! ## The decimal of a double -/

/-- The shortest decimal of a double lies in its interval. -/
private theorem roundsTo_shortest {bits : ℕ} (hpos : 0 < bits) (hfinite : bits < 2047 * 2 ^ 52) :
    RoundsTo (significand bits) (binaryExponent bits) (shortest bits).value := by
  have hm : 0 < significand bits := (normalForm_of_bits hpos hfinite).1.pos
  -- the search may run out of fuel; then the decimal is the double itself
  unfold shortest
  dsimp only
  cases hsearch : (neighbourhood (significand bits) (binaryExponent bits)).search 25
      (decimalBound (significand bits) (binaryExponent bits)) with
  | some d => exact roundsTo_of_search hm hsearch
  | none =>
    rw [Option.getD_none, value_exact]
    exact RoundsTo.self _ _

/-- No other double is nearer to the shortest decimal of a double. -/
theorem abs_sub_shortest_le {bits other : ℕ} (hpos : 0 < bits) (hfinite : bits < 2047 * 2 ^ 52)
    (hpos' : 0 < other) (hfinite' : other < 2047 * 2 ^ 52) :
    |significand bits * 2 ^ binaryExponent bits - (shortest bits).value| ≤
      |significand other * 2 ^ binaryExponent other - (shortest bits).value| := by
  have hform := (normalForm_of_bits hpos hfinite).1
  have hform' := (normalForm_of_bits hpos' hfinite').1
  exact (roundsTo_shortest hpos hfinite).abs_sub_le hform hform'

/-- The shortest decimal of a double that is not zero is not zero either. -/
theorem digits_shortest_pos {bits : ℕ} (hpos : 0 < bits) (hfinite : bits < 2047 * 2 ^ 52) :
    0 < (shortest bits).digits := by
  apply Nat.pos_of_ne_zero
  intro hzero
  -- a decimal that is zero would lie below the low edge of the interval
  have hm : 1 ≤ significand bits := (normalForm_of_bits hpos hfinite).1.pos
  have hlow := (roundsTo_shortest hpos hfinite).low
  have hedge := lowEdge_ge (significand bits) (binaryExponent bits)
  have hm' : (1 : ℚ) ≤ significand bits := by exact_mod_cast hm
  have hedgePos : 0 < lowEdge (significand bits) (binaryExponent bits) := by linarith
  have := mul_pos hedgePos (zpow_pos two_pos (binaryExponent bits))
  rw [value, hzero, Nat.cast_zero, zero_mul] at hlow
  linarith

/-- A quotient with the value of the shortest decimal of a double is rounded to its bits. -/
theorem nearestBits_shortest {bits num den : ℕ} (hpos : 0 < bits) (hfinite : bits < 2047 * 2 ^ 52)
    (hden : 0 < den) (hvalue : (num / den : ℚ) = (shortest bits).value) :
    nearestBits num den = bits := by
  obtain ⟨hform, hbits⟩ := normalForm_of_bits hpos hfinite
  have hrounds := roundsTo_shortest hpos hfinite
  -- the rounding asks for a numerator that is not zero
  have hnum : 0 < num := by
    apply Nat.pos_of_ne_zero
    rintro rfl
    have hdigits : (0 : ℚ) < (shortest bits).digits :=
      Nat.cast_pos.2 (digits_shortest_pos hpos hfinite)
    have hpositive : 0 < (shortest bits).value := mul_pos hdigits (zpow_pos (by norm_num) _)
    rw [← hvalue, Nat.cast_zero, zero_div] at hpositive
    exact lt_irrefl _ hpositive
  rw [← hvalue] at hrounds
  rw [nearestBits_eq hform hnum hden hrounds (by omega), hbits]

end DeskCalc.Decimal
