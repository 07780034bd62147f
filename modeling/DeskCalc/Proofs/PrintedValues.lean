import DeskCalc.Proofs.Acceptance
import DeskCalc.Proofs.DecimalTexts
import DeskCalc.Proofs.Dialogue
import DeskCalc.Proofs.DoubleForms
import DeskCalc.Proofs.Respacing

/-!
# Printed values read back

What the calculator prints for a double is in one of three forms, by its magnitude, and reading it
gives back the double with its sign, so no two doubles are printed alike.  In plain notation a value
that is not negative is also a number literal: a line that holds nothing else is read as this value.

## Key results

- `readValue?_valueText`: a value is read back from its text
- `isPlainText_iff`, `isScientificText_iff`: the form of the text
- `lineTokens_of_plain`: the one token of a line that is a value in plain notation
- `printed_value_reads_back`: all of this for every double that is a number
-/

namespace DeskCalc.Decimal

open Binary64

/-! ## The forms of a text -/

/-- A minus or nothing. -/
def IsSign (text : List Char) : Prop :=
  text = [] ∨ text = ['-']

/-- Plain notation: digits, a point and digits, behind a minus or not. -/
def IsPlainText (text : List Char) : Prop :=
  ∃ sign whole fraction, IsSign sign ∧ IsDigits whole ∧ IsDigits fraction ∧
    text = sign ++ whole ++ '.' :: fraction

/-- Scientific notation: a digit that is not zero, a point, digits, the mark and a power of ten,
    which may have a minus as the whole may. -/
def IsScientificText (text : List Char) : Prop :=
  ∃ sign lead fraction minus exponent, IsSign sign ∧ lead.isDigit = true ∧ lead ≠ '0' ∧
    IsDigits fraction ∧ IsSign minus ∧ IsDigits exponent ∧
    text = sign ++ lead :: '.' :: fraction ++ 'E' :: minus ++ exponent

/-- A sign has no character but the minus. -/
private theorem IsSign.eq_minus {sign : List Char} (h : IsSign sign) {c : Char} (hc : c ∈ sign) :
    c = '-' := by
  rcases h with rfl | rfl
  · cases hc
  · exact List.mem_singleton.1 hc

/-- What is no digit is not among digits. -/
private theorem IsDigits.not_mem {ds : List Char} (h : IsDigits ds) {c : Char}
    (hc : c.isDigit = false) :
    c ∉ ds := by
  intro hmem
  rw [h.2 c hmem] at hc
  cases hc

/-- No letter stands in plain notation. -/
private theorem IsPlainText.letter_not_mem {text : List Char} (h : IsPlainText text) :
    'E' ∉ text ∧ 'I' ∉ text := by
  obtain ⟨sign, whole, fraction, hsign, hwhole, hfraction, rfl⟩ := h
  -- whatever is neither a digit nor one of the two signs
  have hnot : ∀ c : Char, c.isDigit = false → c ≠ '-' → c ≠ '.' →
      c ∉ sign ++ whole ++ '.' :: fraction := by
    intro c hdigit hminus hpoint hc
    rw [List.mem_append, List.mem_append, List.mem_cons] at hc
    rcases hc with (hc | hc) | hc | hc
    · exact hminus (hsign.eq_minus hc)
    · exact hwhole.not_mem hdigit hc
    · exact hpoint hc
    · exact hfraction.not_mem hdigit hc
  exact ⟨hnot 'E' (by decide) (by decide) (by decide), hnot 'I' (by decide) (by decide) (by decide)⟩

/-- The mark of the exponent is the only letter in scientific notation. -/
private theorem IsScientificText.letter_mem {text : List Char} (h : IsScientificText text) :
    'E' ∈ text ∧ 'I' ∉ text := by
  obtain ⟨sign, lead, fraction, minus, exponent, hsign, hlead, -, hfraction, hminus, hexponent,
    rfl⟩ := h
  constructor
  · simp
  intro hc
  simp only [List.mem_append, List.mem_cons] at hc
  -- part by part: the `I` is in none of them
  rcases hc with ((hc | hc | hc | hc) | hc | hc) | hc
  · exact absurd (hsign.eq_minus hc) (by decide)
  · exact (isDigits_singleton hlead).not_mem (c := 'I') (by decide) (List.mem_singleton.2 hc)
  · exact absurd hc (by decide)
  · exact hfraction.not_mem (by decide) hc
  · exact absurd hc (by decide)
  · exact absurd (hminus.eq_minus hc) (by decide)
  · exact hexponent.not_mem (by decide) hc

/-- The sign of a value is a minus or nothing. -/
private theorem isSign_signChars (x : Float) : IsSign (signChars x) := by
  unfold signChars
  split
  · exact Or.inr rfl
  · exact Or.inl rfl

/-- `pointed` writes plain notation. -/
private theorem isPlainText_pointed (x : Float) (d : Decimal) :
    IsPlainText (signChars x ++ pointed d) := by
  obtain ⟨whole, fraction, htext, hne, hdenotes⟩ := exists_pointed d
  refine ⟨signChars x, whole, fraction, isSign_signChars x, hdenotes.isDigits_whole,
    ⟨hne, hdenotes.isDigit_fraction⟩, ?_⟩
  rw [htext, List.append_assoc]

/-- `scientific` writes scientific notation. -/
private theorem isScientificText_scientific (x : Float) {d : Decimal} (hd : 0 < d.digits) :
    IsScientificText (signChars x ++ scientific d) := by
  obtain ⟨lead, fraction, e, htext, hlead, hne, hdenotes⟩ := exists_scientific d
  have hexponent : ∃ minus exponent, IsSign minus ∧ IsDigits exponent ∧
      exponentChars e = minus ++ exponent := by
    unfold exponentChars
    split
    · exact ⟨['-'], _, Or.inr rfl, isDigits_digitChars _, rfl⟩
    · exact ⟨[], _, Or.inl rfl, isDigits_digitChars _, rfl⟩
  obtain ⟨minus, exponent, hminus, hdigits, hchars⟩ := hexponent
  refine ⟨signChars x, lead, fraction, minus, exponent, isSign_signChars x,
    hdenotes.isDigits_whole.2 lead List.mem_cons_self, hlead hd, ⟨hne, hdenotes.isDigit_fraction⟩,
    hminus, hdigits, ?_⟩
  rw [htext, hchars]
  simp

/-! ## The decimal of a double -/

/-- The decimal of a double is its shortest one, or zero. -/
private theorem magnitude_eq (x : Float) :
    magnitude x = if magnitudeBits x = 0 then ⟨0, 0⟩ else shortest (magnitudeBits x) := rfl

/-- A quotient with the value of the decimal of a finite double is rounded to its bits. -/
private theorem nearestBits_magnitude {x : Float} (hfinite : magnitudeBits x < 2047 * 2 ^ 52)
    {num den : ℕ} (hden : 0 < den) (hvalue : (num / den : ℚ) = (magnitude x).value) :
    nearestBits num den = magnitudeBits x := by
  rw [magnitude_eq] at hvalue
  -- a zero is rounded to zero, and the shortest decimal to its double
  split at hvalue
  · next hzero =>
    have hden' : (den : ℚ) ≠ 0 := Nat.cast_ne_zero.2 hden.ne'
    rw [value, Nat.cast_zero, zero_mul, div_eq_zero_iff, or_iff_left hden',
      Nat.cast_eq_zero] at hvalue
    rw [hvalue, hzero]
    rfl
  · next hzero => exact nearestBits_shortest (Nat.pos_of_ne_zero hzero) hfinite hden hvalue

/-- Only zero has the decimal zero. -/
private theorem digits_magnitude_pos {x : Float} (hzero : magnitudeBits x ≠ 0)
    (hfinite : magnitudeBits x < 2047 * 2 ^ 52) : 0 < (magnitude x).digits := by
  rw [magnitude_eq, if_neg hzero]
  exact digits_shortest_pos (Nat.pos_of_ne_zero hzero) hfinite

/-! ## Reading a value -/

/-- Reads a value that has no sign, as the bits of the nearest double. -/
def readMagnitude? (text : List Char) : Option ℕ :=
  if text = "Infinity".toList then some (2047 * 2 ^ 52)
  else (readDecimal? text).map fun d =>
    nearestBits (d.digits * 10 ^ d.exponent.toNat) (10 ^ (-d.exponent).toNat)

/-- Reads a value.  A minus in front of it sets the sign bit, that of a zero too. -/
def readValue? : List Char → Option Float
  | '-' :: text => (readMagnitude? text).map fun bits => Float.ofBits (bits + 2 ^ 63).toUInt64
  | text => (readMagnitude? text).map fun bits => Float.ofBits bits.toUInt64

/-- The sign of a double and its magnitude are read together. -/
private theorem readValue?_signChars {x : Float} {text : List Char} (hhead : text.head? ≠ some '-')
    (hread : readMagnitude? text = some (magnitudeBits x)) :
    readValue? (signChars x ++ text) = some x := by
  have hbits := ofBits_magnitudeBits x
  unfold signChars
  split
  · next hneg =>
    rw [if_pos hneg] at hbits
    rw [List.singleton_append, readValue?, hread, Option.map_some, hbits]
  · next hpos =>
    rw [if_neg hpos] at hbits
    have hminus : ∀ more, text = '-' :: more → False := by
      rintro more rfl
      exact hhead rfl
    rw [List.nil_append, readValue?.eq_2 text hminus, hread, Option.map_some, hbits]

/-- A text that is read as the decimal of a double, and so is nothing else, is read as its bits. -/
private theorem readMagnitude?_of_readDecimal? {x : Float}
    (hfinite : magnitudeBits x < 2047 * 2 ^ 52)
    {text : List Char} {d : Decimal} (hread : readDecimal? text = some d)
    (hvalue : d.value = (magnitude x).value) :
    text.head? ≠ some '-' ∧ readMagnitude? text = some (magnitudeBits x) := by
  constructor
  · intro hhead
    obtain ⟨more, rfl⟩ := List.head?_eq_some_iff.1 hhead
    cases hread
  · have hne : text ≠ "Infinity".toList := by
      rintro rfl
      cases hread
    have hden : 0 < 10 ^ (-d.exponent).toNat := Nat.pow_pos (by norm_num)
    rw [readMagnitude?, if_neg hne, hread, Option.map_some, nearestBits_magnitude hfinite hden]
    -- the quotient that is rounded is the value of the decimal that was read
    rw [← hvalue, value, zpow_eq_div (by norm_num)]
    push_cast
    ring

/-- The text of a double that is a number is read as this double. -/
theorem readValue?_valueText {x : Float} (hx : x.isNaN = false) :
    readValue? (valueText x).toList = some x := by
  rw [valueText, String.toList_ofList, valueChars, if_neg (by rw [hx]; exact Bool.false_ne_true)]
  -- infinity has its own text, and the two notations are read as decimals
  split
  · next hinf =>
    apply readValue?_signChars (by decide)
    rw [readMagnitude?, if_pos rfl, (isInf_iff x).1 hinf]
  · next hinf =>
    have hfinite := magnitudeBits_lt_of_finite hx (Bool.eq_false_of_not_eq_true hinf)
    split
    · obtain ⟨d, hread, hvalue⟩ := readDecimal?_pointed (magnitude x)
      obtain ⟨hhead, hbits⟩ := readMagnitude?_of_readDecimal? hfinite hread hvalue
      exact readValue?_signChars hhead hbits
    · obtain ⟨d, hread, hvalue⟩ := readDecimal?_scientific (magnitude x)
      obtain ⟨hhead, hbits⟩ := readMagnitude?_of_readDecimal? hfinite hread hvalue
      exact readValue?_signChars hhead hbits

/-! ## The form of a value -/

/-- Whether a finite double is printed without an exponent: it is zero, or its magnitude is at least
    a thousandth and below ten million. -/
def IsPlain (x : Float) : Prop :=
  absValue x = 0 ∨ 1 / 1000 ≤ absValue x ∧ absValue x < 10 ^ 7

/-- Infinity is not below ten million. -/
private theorem not_isPlain_of_isInf {x : Float} (hinf : x.isInf = true) : ¬ IsPlain x := by
  have hsignificand : significand (2047 * 2 ^ 52) = 2 ^ 52 := by decide +kernel
  have hexponent : binaryExponent (2047 * 2 ^ 52) = 972 := by decide +kernel
  -- infinity counts as the power of two behind the largest double
  have hlarge : 10 ^ 7 ≤ absValue x := by
    rw [absValue, (isInf_iff x).1 hinf, hsignificand, hexponent]
    calc (10 ^ 7 : ℚ) ≤ (2 ^ 52 : ℕ) := by norm_num
      _ ≤ (2 ^ 52 : ℕ) * 2 ^ (972 : ℤ) := by
        apply le_mul_of_one_le_right (Nat.cast_nonneg _)
        exact one_le_zpow₀ one_le_two (by norm_num)
  rintro (hzero | ⟨-, hlt⟩)
  · rw [hzero] at hlarge
    norm_num at hlarge
  · exact hlarge.not_gt hlt

/-- What the text of a value is, by the class and the magnitude of the double. -/
private theorem valueText_cases {x : Float} (hx : x.isNaN = false) :
    (x.isInf = true ∧ (valueText x).toList = signChars x ++ "Infinity".toList ∧ ¬ IsPlain x) ∨
    (x.isInf = false ∧ IsPlain x ∧ (valueText x).toList = signChars x ++ pointed (magnitude x)) ∨
    (x.isInf = false ∧ ¬ IsPlain x ∧
      (valueText x).toList = signChars x ++ scientific (magnitude x) ∧
        0 < (magnitude x).digits) := by
  rw [valueText, String.toList_ofList, valueChars, if_neg (by rw [hx]; exact Bool.false_ne_true)]
  by_cases hinf : x.isInf = true
  · left
    rw [if_pos hinf]
    exact ⟨hinf, rfl, not_isPlain_of_isInf hinf⟩
  · right
    have hfinite := magnitudeBits_lt_of_finite hx (Bool.eq_false_of_not_eq_true hinf)
    have hrange := inPlainRange_iff hfinite
    rw [if_neg hinf]
    by_cases hplain : IsPlain x
    · left
      rw [if_pos (hrange.2 hplain)]
      exact ⟨Bool.eq_false_of_not_eq_true hinf, hplain, rfl⟩
    · right
      rw [if_neg (mt hrange.1 hplain)]
      -- zero is plain, so a number in scientific notation has a digit other than zero
      have hzero : magnitudeBits x ≠ 0 := fun hzero =>
        hplain (Or.inl ((absValue_eq_zero_iff hfinite).2 hzero))
      exact ⟨Bool.eq_false_of_not_eq_true hinf, hplain, rfl, digits_magnitude_pos hzero hfinite⟩

example : valueText (Float.ofBits 1) = "5.0E-324" := by decide +kernel

/-- Plain notation is told from the other two forms by its lack of letters. -/
theorem isPlainText_iff {x : Float} (hx : x.isNaN = false) :
    IsPlainText (valueText x).toList ↔ IsPlain x := by
  -- in each class there is one form, which a letter tells from the other
  rcases valueText_cases hx with ⟨-, htext, hplain⟩ | ⟨-, hplain, htext⟩ | ⟨-, hplain, htext, hd⟩
  · apply iff_of_false _ hplain
    intro h
    rw [htext] at h
    exact h.letter_not_mem.2 (List.mem_append_right _ (by decide))
  · rw [htext]
    exact iff_of_true (isPlainText_pointed x _) hplain
  · apply iff_of_false _ hplain
    intro h
    rw [htext] at h
    exact h.letter_not_mem.1 (isScientificText_scientific x hd).letter_mem.1

/-- Scientific notation is for all other finite values. -/
theorem isScientificText_iff {x : Float} (hx : x.isNaN = false) :
    IsScientificText (valueText x).toList ↔ x.isInf = false ∧ ¬ IsPlain x := by
  rcases valueText_cases hx with ⟨hinf, htext, -⟩ | ⟨-, hplain, htext⟩ | ⟨hinf, hplain, htext, hd⟩
  · apply iff_of_false _ fun h => Bool.false_ne_true (h.1.symm.trans hinf)
    intro h
    rw [htext] at h
    exact h.letter_mem.2 (List.mem_append_right _ (by decide))
  · apply iff_of_false _ fun h => h.2 hplain
    intro h
    rw [htext] at h
    exact (isPlainText_pointed x _).letter_not_mem.1 h.letter_mem.1
  · rw [htext]
    exact iff_of_true (isScientificText_scientific x hd) ⟨hinf, hplain⟩

/-! ## A value as a line -/

/-- A number on its own is a line with one token. -/
private theorem line_of_isNumberText {text : List Char} (h : Lexeme.IsNumberText text) :
    Lexeme.line text = [⟨0, text, .number (readLiteral text)⟩] := by
  have hsplit : Lexeme.splitNumber text = (text, []) := by
    have hnothing : ∀ c ∈ ([] : List Char).head?,
        ¬ (c.isDigit = true ∨ c = '.' ∧ '.' ∉ text) := nofun
    have hends := Lexeme.splitNumber_append_of_ends h hnothing
    rwa [List.append_nil] at hends
  obtain ⟨whole, tail, rfl, hne, hwhole, -⟩ := h
  obtain ⟨c, rest, rfl⟩ := List.exists_cons_of_ne_nil hne
  have hdigit : c.isDigit = true := hwhole c List.mem_cons_self
  -- a digit is neither a space nor a token of its own
  have hspace : c ≠ ' ' := by
    rintro rfl
    cases hdigit
  have hsymbol : Token.ofSymbol? c = none := by
    cases hsome : Token.ofSymbol? c with
    | none => rfl
    | some t =>
      rw [(Lexeme.not_operand_of_ofSymbol? hsome).2.1] at hdigit
      cases hdigit
  -- so the number starts here, and nothing is left behind it
  have hnext : Lexeme.next? (c :: (rest ++ tail)) =
      some (⟨0, c :: (rest ++ tail), .number (readLiteral (c :: (rest ++ tail)))⟩, []) := by
    rw [List.cons_append] at hsplit
    rw [Lexeme.next?, Lexeme.nextFrom?_cons hspace, Lexeme.startingAt, hsymbol]
    dsimp only
    rw [if_pos hdigit, hsplit]
  rw [List.cons_append, Lexeme.line_of_some hnext, if_neg Token.noConfusion,
    Lexeme.line_of_none rfl]

/-- A literal is read as the nearest double to what its digits denote. -/
private theorem readLiteral_of_digits {whole fraction : List Char} (hwhole : IsDigits whole) :
    readLiteral (whole ++ '.' :: fraction) =
      nearest (ofDigits (whole ++ fraction)) (10 ^ fraction.length) := by
  unfold readLiteral
  rw [List.takeWhile_append_of_pos hwhole.2, List.dropWhile_append_of_pos hwhole.2,
    List.takeWhile_cons_of_neg (by decide), List.dropWhile_cons_of_neg (by decide), List.append_nil]
  rfl

/-- A literal with the value of the decimal of a double is read as the double, if its sign bit is
    not set. -/
private theorem readLiteral_of_denotes {x : Float} (hfinite : magnitudeBits x < 2047 * 2 ^ 52)
    (hsign : isNegative x = false) {whole fraction : List Char}
    (hdenotes : Denotes whole fraction (magnitude x).value) :
    readLiteral (whole ++ '.' :: fraction) = x := by
  have hround : nearestBits (ofDigits (whole ++ fraction)) (10 ^ fraction.length) =
      magnitudeBits x := by
    apply nearestBits_magnitude hfinite (Nat.pow_pos (by norm_num))
    rw [← hdenotes.value_eq, zpow_neg, zpow_natCast, ← div_eq_mul_inv]
    push_cast
    rfl
  have hbits := ofBits_magnitudeBits x
  rw [if_neg (by rw [hsign]; exact Bool.false_ne_true)] at hbits
  rw [readLiteral_of_digits hdenotes.isDigits_whole, nearest, hround, hbits]

/-- A value in plain notation and without a minus is a line with one token, this value. -/
theorem lineTokens_of_plain {x : Float} (hx : x.isNaN = false) (hplain : IsPlain x)
    (hsign : isNegative x = false) :
    '\n' ∉ (valueText x).toList ∧ lineTokens (valueText x).toList = [.number x] := by
  obtain ⟨whole, fraction, hpointed, -, hdenotes⟩ := exists_pointed (magnitude x)
  have hfinite : magnitudeBits x < 2047 * 2 ^ 52 := by
    apply magnitudeBits_lt_of_finite hx
    exact Bool.eq_false_of_not_eq_true fun hinf => not_isPlain_of_isInf hinf hplain
  -- without a minus the text is that of the decimal
  have hsigned : signChars x = [] := by
    rw [signChars, hsign]
    rfl
  have htext : (valueText x).toList = whole ++ '.' :: fraction := by
    rcases valueText_cases hx with ⟨-, -, hnot⟩ | ⟨-, -, htext⟩ | ⟨-, hnot, -⟩
    · exact absurd hplain hnot
    · rw [htext, hsigned, hpointed, List.nil_append]
    · exact absurd hplain hnot
  have hnewline : '\n' ∉ whole ++ '.' :: fraction := by
    rw [List.mem_append, List.mem_cons, not_or, not_or]
    refine ⟨hdenotes.isDigits_whole.not_mem (by decide), by decide, fun hmem => ?_⟩
    exact absurd (hdenotes.isDigit_fraction _ hmem) (by decide)
  have hliteral := readLiteral_of_denotes hfinite hsign hdenotes
  have hnumber : Lexeme.IsNumberText (whole ++ '.' :: fraction) :=
    ⟨whole, '.' :: fraction, rfl, hdenotes.isDigits_whole.1, hdenotes.isDigits_whole.2,
      .inr ⟨fraction, rfl, hdenotes.isDigit_fraction⟩⟩
  rw [htext]
  apply And.intro hnewline
  rw [lineTokens_eq hnewline, line_of_isNumberText hnumber, hliteral]
  rfl

/-- What is printed for a double that is a number is `Infinity` or `-Infinity`; plain notation, if
    it is zero or its magnitude is at least a thousandth and below ten million; or else scientific
    notation.  It is read back as the double with its sign, so no other double is printed alike; and
    a line that is a value in plain notation without a minus is read as this value and its end. -/
theorem printed_value_reads_back {x : Float} (hx : x.isNaN = false) :
    ((x.isInf = true ∧ (valueText x).toList =
        (if isNegative x then "-Infinity" else "Infinity").toList) ∨
      IsPlainText (valueText x).toList ∨ IsScientificText (valueText x).toList) ∧
    (IsPlainText (valueText x).toList ↔ IsPlain x) ∧
    (IsScientificText (valueText x).toList ↔ x.isInf = false ∧ ¬ IsPlain x) ∧
    readValue? (valueText x).toList = some x ∧
    (∀ y : Float, y.isNaN = false → valueText y = valueText x → y = x) ∧
    (IsPlain x → isNegative x = false → ∀ {σ : Type} [LineSource σ] (c : Calculator σ),
      c.Awaits (valueText x).toList →
        ∃ stream, c.stream.Yields [.number x, .endOfLine] stream) := by
  have hread := readValue?_valueText hx
  refine ⟨?_, isPlainText_iff hx, isScientificText_iff hx, hread, ?_, ?_⟩
  · rcases valueText_cases hx with ⟨hinf, htext, -⟩ | ⟨-, -, htext⟩ | ⟨-, -, htext, hd⟩
    · left
      refine ⟨hinf, ?_⟩
      rw [htext, signChars]
      split <;> rfl
    · right; left
      rw [htext]
      exact isPlainText_pointed x _
    · right; right
      rw [htext]
      exact isScientificText_scientific x hd
  · intro y hy hsame
    -- two doubles that are printed alike are read back from the same text
    have hread' := readValue?_valueText hy
    rw [hsame, hread] at hread'
    exact (Option.some.inj hread').symm
  · intro hplain hsign σ _ c hawaits
    obtain ⟨hnewline, htokens⟩ := lineTokens_of_plain hx hplain hsign
    obtain ⟨stream, hyields⟩ := hawaits.exists_yields hnewline
    rw [htokens] at hyields
    exact ⟨stream, hyields⟩

/-- One tenth is printed in plain notation and read back, as a value and as a line. -/
theorem printed_tenth_reads_back :
    (0.1 : Float).isNaN = false ∧ IsPlainText (valueText 0.1).toList ∧
      readValue? (valueText 0.1).toList = some 0.1 ∧
      ∃ stream, (Calculator.ofLine .empty (valueText 0.1).toList).stream.Yields
        [.number 0.1, .endOfLine] stream := by
  have hx : (0.1 : Float).isNaN = false := rfl
  have hplain : IsPlain 0.1 := by
    have hbits : magnitudeBits 0.1 = 0x3FB999999999999A := by decide +kernel
    have hsignificand : significand 0x3FB999999999999A = 0x1999999999999A := by decide +kernel
    have hexponent : binaryExponent 0x3FB999999999999A = -56 := by decide +kernel
    rw [IsPlain, absValue, hbits, hsignificand, hexponent]
    norm_num
  have hsign : isNegative 0.1 = false := by decide +kernel
  obtain ⟨-, hform, -, hread, -, hline⟩ := printed_value_reads_back hx
  exact ⟨hx, hform.2 hplain, hread, hline hplain hsign _ (Calculator.awaits_ofLine _ _)⟩

end DeskCalc.Decimal
