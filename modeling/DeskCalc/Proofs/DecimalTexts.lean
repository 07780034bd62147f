import DeskCalc.Decimal.Notation
import DeskCalc.Proofs.ShortestDecimals
import Mathlib.Tactic.IntervalCases

/-!
# Decimals as text

A decimal is written with a point, alone or with an exponent behind it.  Both ways put its digits on
either side of the point and pad them with zeros; reading the text gives back a decimal of the same
value, whatever the padding.

## Key results

- `denotes_splitAtPoint`: the digits on either side of the point have the value of the decimal
- `readDecimal?_pointed`, `readDecimal?_scientific`: both notations are read back
-/

namespace DeskCalc.Decimal

/-! ## Digits -/

/-- One digit or more. -/
def IsDigits (text : List Char) : Prop :=
  text ≠ [] ∧ ∀ c ∈ text, c.isDigit = true

instance : DecidablePred IsDigits := fun text =>
  inferInstanceAs (Decidable (text ≠ [] ∧ ∀ c ∈ text, c.isDigit = true))

/-- A digit alone is one digit or more. -/
theorem isDigits_singleton {c : Char} (h : c.isDigit = true) : IsDigits [c] :=
  ⟨List.cons_ne_nil _ _, fun _ hc => List.mem_singleton.1 hc ▸ h⟩

/-- A number is written in digits, in one at least. -/
theorem isDigits_digitChars (n : ℕ) : IsDigits (digitChars n) :=
  ⟨Nat.toDigits_ne_nil, fun _ hc => Nat.isDigit_of_mem_toDigits (by decide) (by decide) hc⟩

/-- `ofDigits` reads digits as the library does. -/
private theorem ofDigits_eq (ds : List Char) : ofDigits ds = Nat.ofDigitChars 10 ds 0 :=
  Nat.ofDigitChars_eq_foldl.symm

/-- Digits that were written are read back. -/
@[simp]
private theorem ofDigits_digitChars (n : ℕ) : ofDigits (digitChars n) = n := by
  rw [ofDigits_eq]
  exact Nat.ofDigitChars_ten_toDigits

/-- Digits in front count for as many powers of ten as there are digits behind them. -/
private theorem ofDigits_append (ds ds' : List Char) :
    ofDigits (ds ++ ds') = 10 ^ ds'.length * ofDigits ds + ofDigits ds' := by
  simp only [ofDigits_eq, Nat.ofDigitChars_append]
  exact Nat.ofDigitChars_eq_ofDigitChars_zero

/-- Zeros make zero. -/
@[simp]
private theorem ofDigits_replicate_zero (n : ℕ) : ofDigits (List.replicate n '0') = 0 := by
  rw [ofDigits_eq, Nat.ofDigitChars_replicate_zero, Nat.mul_zero]

/-- A zero is zero. -/
private theorem ofDigits_zero : ofDigits ['0'] = 0 := rfl

/-- Zeros behind a number scale it, and the point takes this back. -/
private theorem ofDigits_append_zero (ds : List Char) : ofDigits
    (ds ++ ['0']) = 10 * ofDigits ds := by
  rw [ofDigits_append, ofDigits_zero, Nat.add_zero]
  rfl

/-- A number that is not zero does not start with a zero. -/
private theorem head?_digitChars_ne {n : ℕ} (h : 0 < n) : (digitChars n).head? ≠ some '0' := by
  unfold digitChars
  induction n using Nat.strong_induction_on with
  | _ n ih =>
    rw [Nat.toDigits_eq_if (by decide)]
    -- a number of one digit is that digit, a larger one starts as its tenth does
    split
    · next hlt =>
      interval_cases n <;> decide
    · next hge =>
      have hrest := ih (n / 10) (by omega) (by omega)
      rwa [List.head?_append_of_ne_nil _ Nat.toDigits_ne_nil]

/-! ## The digits on either side of the point -/

/-- Digits on either side of a point, one before it at least, that denote `r`. -/
structure Denotes (whole fraction : List Char) (r : ℚ) : Prop where
  isDigits_whole : IsDigits whole
  isDigit_fraction : ∀ c ∈ fraction, c.isDigit = true
  value_eq : (ofDigits (whole ++ fraction) : ℚ) * 10 ^ (-(fraction.length : ℤ)) = r

/-- A zero behind the point changes nothing. -/
private theorem Denotes.append_zero {whole : List Char} {r : ℚ} (h : Denotes whole [] r) :
    Denotes whole ['0'] r := by
  refine ⟨h.isDigits_whole, (isDigits_singleton rfl).2, ?_⟩
  have hvalue := h.value_eq
  rw [List.append_nil, List.length_nil, Nat.cast_zero, neg_zero, zpow_zero, mul_one] at hvalue
  have hten : (10 : ℚ) ^ (-((['0'].length : ℕ) : ℤ)) = 10⁻¹ := zpow_neg_one 10
  rw [ofDigits_append_zero, hten, ← hvalue]
  push_cast
  ring

/-- Zeros are digits. -/
private theorem isDigit_of_mem_replicate_zero {n : ℕ} {c : Char} (h : c ∈ List.replicate n '0') :
    c.isDigit = true := by
  rw [List.eq_of_mem_replicate h]
  rfl

/-- The digits around the point have the value of the decimal. -/
theorem denotes_splitAtPoint (d : Decimal) :
    Denotes (splitAtPoint d).1 (splitAtPoint d).2 d.value := by
  obtain ⟨hne, hdigits⟩ := isDigits_digitChars d.digits
  have hvalue := ofDigits_digitChars d.digits
  -- only the digits matter from here on, not that they were written for `d.digits`
  unfold splitAtPoint value
  generalize digitChars d.digits = ds at *
  dsimp only
  split
  · -- zeros stand between the point and the digits
    next hpoint =>
    refine ⟨isDigits_singleton rfl, ?_, ?_⟩
    · intro c hc
      rcases List.mem_append.1 hc with hc | hc
      · exact isDigit_of_mem_replicate_zero hc
      · exact hdigits c hc
    · have hlength : ((List.replicate (-((ds.length : ℤ) + d.exponent)).toNat '0' ++ ds).length : ℤ)
          = -d.exponent := by
        rw [List.length_append, List.length_replicate]
        omega
      rw [hlength, neg_neg, ofDigits_append, ofDigits_append, ofDigits_replicate_zero,
        ofDigits_zero, hvalue, Nat.mul_zero, Nat.mul_zero, Nat.zero_add, Nat.zero_add]
  · next hpoint =>
    split
    · -- zeros stand between the digits and the point
      next hlarge =>
      refine ⟨⟨List.append_ne_nil_of_left_ne_nil hne _, ?_⟩, List.forall_mem_nil _, ?_⟩
      · intro c hc
        rcases List.mem_append.1 hc with hc | hc
        · exact hdigits c hc
        · exact isDigit_of_mem_replicate_zero hc
      · have hexponent : ((ds.length : ℤ) + d.exponent - ds.length).toNat = d.exponent.toNat := by
          congr 1
          omega
        have hnonneg : (d.exponent.toNat : ℤ) = d.exponent := Int.toNat_of_nonneg (by omega)
        rw [hexponent, List.append_nil, ofDigits_append, ofDigits_replicate_zero, hvalue,
          List.length_replicate, List.length_nil, Nat.cast_zero, neg_zero, zpow_zero, mul_one,
          Nat.add_zero]
        push_cast
        rw [← zpow_natCast, hnonneg, mul_comm]
    · -- the point is inside
      next hsmall =>
      refine ⟨⟨?_, ?_⟩, ?_, ?_⟩
      · rw [ne_eq, List.take_eq_nil_iff, not_or]
        exact ⟨by omega, hne⟩
      · exact fun c hc => hdigits c (List.mem_of_mem_take hc)
      · exact fun c hc => hdigits c (List.mem_of_mem_drop hc)
      · have hlength : ((ds.drop ((ds.length : ℤ) + d.exponent).toNat).length : ℤ) =
            -d.exponent := by
          rw [List.length_drop]
          omega
        rw [hlength, neg_neg, List.take_append_drop, hvalue]

/-- Plain notation: digits, a point, and digits. -/
theorem exists_pointed (d : Decimal) :
    ∃ whole fraction, pointed d = whole ++ '.' :: fraction ∧ fraction ≠ [] ∧
      Denotes whole fraction d.value := by
  have h := denotes_splitAtPoint d
  unfold pointed
  split
  · next whole hsplit =>
    rw [hsplit] at h
    exact ⟨whole, ['0'], rfl, by decide, h.append_zero⟩
  · next whole fraction hne hsplit =>
    rw [hsplit] at h
    exact ⟨whole, fraction, rfl, hne, h⟩

/-- Scientific notation: a digit, a point, digits, and an exponent.  The digit is not zero unless
    the decimal is. -/
theorem exists_scientific (d : Decimal) :
    ∃ lead fraction e, scientific d = [lead] ++ '.' :: fraction ++ 'E' :: exponentChars e ∧
      (0 < d.digits → lead ≠ '0') ∧ fraction ≠ [] ∧ Denotes [lead] fraction (d.value / 10 ^ e) := by
  obtain ⟨hne, hdigits⟩ := isDigits_digitChars d.digits
  have hvalue := ofDigits_digitChars d.digits
  have hhead := fun h => head?_digitChars_ne (n := d.digits) h
  have hten : (10 : ℚ) ≠ 0 := by norm_num
  unfold scientific
  dsimp only
  generalize digitChars d.digits = ds at *
  cases ds with
  | nil => exact absurd rfl hne
  | cons lead rest =>
    have hlead : 0 < d.digits → lead ≠ '0' := fun h heq => hhead h (congrArg some heq)
    have hwhole : IsDigits [lead] := isDigits_singleton (hdigits lead List.mem_cons_self)
    -- the exponent counts the digits behind the first one
    have hexponent : ((lead :: rest).length : ℤ) + d.exponent - 1 = rest.length + d.exponent := by
      rw [List.length_cons]
      push_cast
      ring
    -- the first digit is a value between one and ten, scaled by the others
    have hdenotes : Denotes [lead] rest (d.value / 10 ^ ((rest.length : ℤ) + d.exponent)) := by
      refine ⟨hwhole, fun c hc => hdigits c (List.mem_cons_of_mem lead hc), ?_⟩
      rw [List.singleton_append, hvalue, value, zpow_add₀ hten, zpow_neg]
      field_simp
    rw [hexponent]
    cases rest with
    | nil => exact ⟨lead, ['0'], _, rfl, hlead, List.cons_ne_nil _ _, hdenotes.append_zero⟩
    | cons c rest =>
      refine ⟨lead, c :: rest, _, ?_, hlead, List.cons_ne_nil _ _, hdenotes⟩
      rw [if_neg (by simp)]
      rfl

/-! ## Reading -/

/-- Reads what may stand behind the digits: nothing, or a power of ten behind its mark. -/
def readExponent? : List Char → Option ℤ
  | [] => some 0
  | 'E' :: '-' :: ds => if IsDigits ds then some (-(ofDigits ds : ℤ)) else none
  | 'E' :: ds => if IsDigits ds then some (ofDigits ds : ℤ) else none
  | _ => none

/-- Reads digits, a point, digits, and perhaps an exponent. -/
def readDecimal? (text : List Char) : Option Decimal :=
  let whole := text.takeWhile Char.isDigit
  match text.dropWhile Char.isDigit with
  | '.' :: rest =>
    let fraction := rest.takeWhile Char.isDigit
    if whole = [] ∨ fraction = [] then none
    else (readExponent? (rest.dropWhile Char.isDigit)).map fun e =>
      ⟨ofDigits (whole ++ fraction), e - fraction.length⟩
  | _ => none

/-- An exponent is read back with its sign. -/
private theorem readExponent?_exponentChars (e : ℤ) : readExponent?
    ('E' :: exponentChars e) = some e := by
  unfold exponentChars
  split
  · next hneg =>
    rw [readExponent?, if_pos (isDigits_digitChars _), ofDigits_digitChars]
    congr 1
    omega
  · next hnonneg =>
    have hdigits := isDigits_digitChars e.toNat
    have hvalue := ofDigits_digitChars e.toNat
    generalize digitChars e.toNat = ds at *
    -- the digits are not taken for a sign
    have hsign : ∀ more, ds = '-' :: more → False := by
      rintro more rfl
      exact absurd (hdigits.2 '-' List.mem_cons_self) (by decide)
    rw [readExponent?.eq_3 ds hsign, if_pos hdigits, hvalue]
    congr 1
    omega

/-- What is read as an exponent does not start with a digit. -/
private theorem takeWhile_of_readExponent? {tail : List Char} {e : ℤ}
    (h : readExponent? tail = some e) :
    tail.takeWhile Char.isDigit = [] ∧ tail.dropWhile Char.isDigit = tail := by
  unfold readExponent? at h
  split at h
  · exact ⟨rfl, rfl⟩
  · exact ⟨rfl, rfl⟩
  · exact ⟨rfl, rfl⟩
  · cases h

/-- Digits around a point are read, with an exponent or without, as the value that they denote. -/
private theorem exists_readDecimal? {whole fraction tail : List Char} {r : ℚ} {e : ℤ}
    (h : Denotes whole fraction r) (hne : fraction ≠ []) (htail : readExponent? tail = some e) :
    ∃ d, readDecimal? (whole ++ '.' :: fraction ++ tail) = some d ∧ d.value = r * 10 ^ e := by
  obtain ⟨htake, hdrop⟩ := takeWhile_of_readExponent? htail
  have hten : (10 : ℚ) ≠ 0 := by norm_num
  -- the value is that of all digits, and the point takes its places back
  refine ⟨⟨ofDigits (whole ++ fraction), e - fraction.length⟩, ?_, ?_⟩
  · unfold readDecimal?
    rw [List.append_assoc, List.cons_append,
      List.takeWhile_append_of_pos h.isDigits_whole.2,
      List.dropWhile_append_of_pos h.isDigits_whole.2, List.takeWhile_cons_of_neg (by decide),
      List.dropWhile_cons_of_neg (by decide), List.append_nil]
    simp only [List.takeWhile_append_of_pos h.isDigit_fraction,
      List.dropWhile_append_of_pos h.isDigit_fraction, htake, hdrop, List.append_nil]
    rw [if_neg (not_or.2 ⟨h.isDigits_whole.1, hne⟩), htail, Option.map_some]
  · rw [value, ← h.value_eq, sub_eq_add_neg, zpow_add₀ hten]
    ring

/-- Plain notation is read back. -/
theorem readDecimal?_pointed (d : Decimal) :
    ∃ d', readDecimal? (pointed d) = some d' ∧ d'.value = d.value := by
  obtain ⟨whole, fraction, htext, hne, hdenotes⟩ := exists_pointed d
  have hend : readExponent? [] = some 0 := rfl
  obtain ⟨d', hread, hvalue⟩ := exists_readDecimal? hdenotes hne hend
  rw [List.append_nil, ← htext] at hread
  rw [zpow_zero, mul_one] at hvalue
  exact ⟨d', hread, hvalue⟩

/-- Scientific notation is read back. -/
theorem readDecimal?_scientific (d : Decimal) :
    ∃ d', readDecimal? (scientific d) = some d' ∧ d'.value = d.value := by
  obtain ⟨lead, fraction, e, htext, -, hne, hdenotes⟩ := exists_scientific d
  obtain ⟨d', hread, hvalue⟩ := exists_readDecimal? hdenotes hne (readExponent?_exponentChars e)
  rw [← htext] at hread
  -- the power of ten that was divided off is multiplied back
  rw [div_mul_cancel₀ _ (zpow_ne_zero e (by norm_num))] at hvalue
  exact ⟨d', hread, hvalue⟩

end DeskCalc.Decimal
