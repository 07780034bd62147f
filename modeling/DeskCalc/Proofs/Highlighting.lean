import DeskCalc.Desk.Highlight
import DeskCalc.Proofs.LongestMatch

/-!
# Highlighted spans and tokens

The highlighter and the token stream cut an expression independently.  The highlighter cuts it into
runs, and the lexemes of a text are those of its runs, one run after the other.  A name or an
operator is one run and one token.  A run of digits and points is one number as long as it has at
most one point; a second point goes on with the run but ends the number.

## Key results

- `highlight_eq_runs`: the highlighter colors the text run by run
- `marks_eq_runs`: the tokens of a text are those of its runs
- `marks_number_eq_iff`: a run of digits and points is one number if it has at most one point
- `highlight_agrees_with_tokens`: names and operators are always the tokens that are read, operands
  are as long as no number has a second point
-/

namespace DeskCalc.Desk

open Screen

/-! ## Runs -/

namespace Run

/-- The kind of the run that starts with `c`. -/
def starting (c : Char) : Run := next .other c

/-- Behind a character that stands alone, a run starts. -/
private theorem next_other (c : Char) : next .other c = starting c := rfl

/-- Whether a run goes on with `c`. -/
def goesOn : Run → Char → Bool
  | other, _ => false
  | number, c => c.isDigit || c == '.'
  | name, c => Lexeme.isNameChar c

/-- A letter starts a name and a digit a number. -/
private theorem starting_eq (c : Char) :
    starting c =
      if Text.isAlphabetic c then name else if c.isDigit then number else other := by
  simp [starting, next]

/-- Digits start the runs of numbers. -/
theorem starting_eq_number_iff {c : Char} : starting c = number ↔ c.isDigit = true := by
  rw [starting_eq]
  -- a digit is no letter, so the order of the tests does not matter
  by_cases hd : c.isDigit
  · simp [hd, Lexeme.isAlphabetic_eq_false_of_isDigit hd]
  · split <;> simp [hd]

/-- Letters start the runs of names. -/
theorem starting_eq_name_iff {c : Char} : starting c = name ↔ Text.isAlphabetic c = true := by
  rw [starting_eq]
  split
  · next h => simp [h]
  · next h => split <;> simp [h]

/-- What is neither a letter nor a digit stands alone. -/
theorem starting_eq_other_iff {c : Char} :
    starting c = other ↔ Text.isAlphabetic c = false ∧ c.isDigit = false := by
  rw [starting_eq]
  split
  · next h => simp [h]
  · next h => split <;> simp_all

/-- A character that a number goes on with is no letter. -/
private theorem isAlphabetic_eq_false_of_goesOn {c : Char} (h : goesOn number c = true) :
    Text.isAlphabetic c = false := by
  rcases Bool.or_eq_true_iff.1 h with hd | hpoint
  · exact Lexeme.isAlphabetic_eq_false_of_isDigit hd
  · rw [beq_iff_eq.1 hpoint]
    exact Lexeme.isAlphabetic_eq_false_of_lt (by decide)

/-- A character goes on with the run before it or starts a run as if nothing stood before it. -/
private theorem next_eq {run : Run} {c : Char} :
    run.next c = if run.goesOn c then run else starting c := by
  cases run with
  | other => rfl
  | name => simp [next, goesOn, starting_eq, Lexeme.isNameChar]
  | number =>
    by_cases hgo : goesOn number c
    · have ha := isAlphabetic_eq_false_of_goesOn hgo
      have hc : c.isDigit = true ∨ c = '.' := by simpa [goesOn] using hgo
      rw [if_pos hgo]
      simp only [next, ha, hc, reduceCtorEq, Bool.false_eq_true, false_and, false_or,
        true_and, if_true, if_false]
    · rw [if_neg hgo, starting_eq]
      have hc : ¬(c.isDigit = true ∨ c = '.') := by simpa [goesOn] using hgo
      simp [next, not_or.1 hc]

/-- A name or number goes on with the character that starts another one of its kind. -/
theorem goesOn_starting {c : Char} (h : starting c ≠ other) : (starting c).goesOn c = true := by
  cases hkind : starting c with
  | other => exact absurd hkind h
  | number => simp [goesOn, starting_eq_number_iff.1 hkind]
  | name => simp [goesOn, Lexeme.isNameChar, starting_eq_name_iff.1 hkind]

/-- No character goes on with one that stands alone. -/
@[simp] private theorem takeWhile_goesOn_other (cs : List Char) :
    cs.takeWhile other.goesOn = [] := by
  cases cs <;> rfl

/-- Everything is left behind a character that stands alone. -/
@[simp] private theorem dropWhile_goesOn_other (cs : List Char) :
    cs.dropWhile other.goesOn = cs := by
  cases cs <;> rfl

/-- The spans of a run: a span for the whole of a name or number, and one for each other
    character. -/
def spans (base : Style) (run : Run) (chars : List Char) : List Span :=
  if run = other then chars.map (otherSpan base) else [⟨chars, run.style base⟩]

end Run

/-- The runs of a text. -/
def runs : List Char → List (Run × List Char)
  | [] => []
  | c :: cs =>
    let run := Run.starting c
    (run, c :: cs.takeWhile run.goesOn) :: runs (cs.dropWhile run.goesOn)
termination_by cs => cs.length
decreasing_by exact Nat.lt_succ_of_le (List.dropWhile_suffix _).length_le

/-- A run has a first character, which determines its kind, and goes on with the others. -/
def IsRun : Run × List Char → Prop
  | (run, chars) => ∃ c cs, chars = c :: cs ∧ run = .starting c ∧ ∀ x ∈ cs, run.goesOn x = true

/-- `runs` cuts a text into runs. -/
theorem isRun_of_mem_runs {cs : List Char} {r : Run × List Char} (h : r ∈ runs cs) : IsRun r := by
  induction cs using runs.induct with
  | case1 => simp [runs] at h
  | case2 c cs run ih =>
    rw [runs, List.mem_cons] at h
    rcases h with rfl | h
    · exact ⟨c, cs.takeWhile run.goesOn, rfl, rfl, fun x hx => List.mem_takeWhile_imp hx⟩
    · exact ih h

/-- What is not in a name or number stands alone. -/
theorem IsRun.eq_singleton {chars : List Char} (h : IsRun (.other, chars)) :
    ∃ c, chars = [c] ∧ Text.isAlphabetic c = false ∧ c.isDigit = false := by
  obtain ⟨c, cs, rfl, hrun, hcs⟩ := h
  obtain rfl : cs = [] := List.eq_nil_iff_forall_not_mem.2 fun x hx => Bool.false_ne_true (hcs x hx)
  exact ⟨c, rfl, Run.starting_eq_other_iff.1 hrun.symm⟩

/-- The runs of a text are together the text. -/
theorem text_runs (cs : List Char) : (runs cs).flatMap Prod.snd = cs := by
  induction cs using runs.induct with
  | case1 => simp [runs]
  | case2 c cs run ih =>
    rw [runs, List.flatMap_cons, ih, List.cons_append, List.takeWhile_append_dropWhile]

/-! ## The highlighter colors runs -/

/-- A name or number that has been started is finished before the next run. -/
private theorem highlightFrom_eq {base : Style} {run : Run} (hrun : run ≠ .other)
    {chars : List Char} (hchars : chars ≠ []) (cs : List Char) :
    highlightFrom base run chars cs =
      ⟨chars ++ cs.takeWhile run.goesOn, run.style base⟩ ::
        highlight base (cs.dropWhile run.goesOn) := by
  have hspan : ∀ chars : List Char, chars ≠ [] →
      runSpan base run chars = [⟨chars, run.style base⟩] := by
    intro chars hne
    rw [runSpan, if_neg (by simpa using hne)]
  -- the run grows with each character, so it is generalized
  induction cs generalizing chars with
  | nil =>
    rw [highlightFrom, hspan chars hchars]
    simp [highlight, highlightFrom, runSpan]
  | cons c cs ih =>
    rw [highlightFrom]
    simp only [Run.next_eq]
    by_cases hgo : run.goesOn c
    · rw [if_pos hgo, if_neg hrun, if_pos rfl, ih (by simp)]
      simp [hgo]
    · rw [if_neg hgo, hspan chars hchars, List.takeWhile_cons_of_neg hgo,
        List.dropWhile_cons_of_neg hgo, List.append_nil, highlight, highlightFrom]
      rw [Run.next_other]
      by_cases hother : Run.starting c = .other
      · simp [hother, runSpan]
      · have hne : Run.starting c ≠ run := by
          -- a letter or digit that starts a run of its kind would have gone on with it
          rintro rfl
          exact hgo (Run.goesOn_starting hother)
        simp [hother, hne, runSpan]

/-- A text is colored run by run. -/
theorem highlight_eq_runs (base : Style) (cs : List Char) :
    highlight base cs = (runs cs).flatMap fun r => r.1.spans base r.2 := by
  induction cs using runs.induct with
  | case1 => simp [highlight, highlightFrom, runSpan, runs]
  | case2 c cs run ih =>
    rw [runs, List.flatMap_cons, ← ih, highlight, highlightFrom]
    dsimp only
    rw [Run.next_other, Run.spans]
    by_cases hother : Run.starting c = .other
    · simp [hother, run, runSpan, highlight]
    · rw [if_neg hother, if_neg hother, if_neg hother, highlightFrom_eq hother (by simp)]
      simp [run, runSpan]

/-! ## Tokens as they would be marked -/

/-- The style of a token.  The end of a line and a character that is refused have none. -/
def tokenStyle? : Token → Option Style
  | .number _ => some (Style.color .lightGreen)
  | .name _ => some (Style.boldColor .lightBlue)
  | .binary _ | .negate | .assign => some (Style.boldColor .yellow)
  | .endOfLine | .invalid _ => none

/-- The span of a token that was read from `text`. -/
def mark? (text : List Char) (t : Token) : Option Span :=
  (tokenStyle? t).map fun style => ⟨text, style⟩

/-- The spans of the tokens of a text. -/
def marks (cs : List Char) : List Span :=
  (Lexeme.line cs).filterMap fun l => mark? l.text l.token

/-- There is nothing to mark in the empty text. -/
private theorem marks_nil : marks [] = [] := by
  rw [marks, Lexeme.line_of_none rfl]
  rfl

/-- The first token of a text is marked first. -/
private theorem marks_of_next? {cs rest : List Char} {l : Lexeme}
    (h : Lexeme.next? cs = some (l, rest))
    (ht : l.token ≠ .endOfLine) : marks cs = (mark? l.text l.token).toList ++ marks rest := by
  rw [marks, Lexeme.line_of_some h, if_neg ht, List.filterMap_cons]
  cases mark? l.text l.token <;> rfl

/-- Spaces in front of a text do not matter to its tokens. -/
private theorem marks_space (cs : List Char) : marks (' ' :: cs) = marks cs := by
  have hspace : Lexeme.next? (' ' :: cs) = Lexeme.nextFrom? 1 cs := rfl
  cases hnext : Lexeme.next? cs with
  | none =>
    have hblank := Lexeme.nextFrom?_eq_none_iff.1 hnext
    have hnone : Lexeme.next? (' ' :: cs) = none :=
      hspace.trans (Lexeme.nextFrom?_eq_none_iff.2 hblank)
    rw [marks, marks, Lexeme.line_of_none hnext, Lexeme.line_of_none hnone]
  | some p =>
    obtain ⟨l, rest⟩ := p
    obtain ⟨c, cs', hc, rfl, hstart⟩ := Lexeme.next?_eq_some hnext
    -- the same lexeme comes first, with one more space in front of it
    have hsome : Lexeme.next? (' ' :: (List.replicate l.gap ' ' ++ c :: cs')) =
        some (l.withGap (1 + l.gap), rest) := by
      rw [hspace, Lexeme.nextFrom?_replicate_append, Lexeme.nextFrom?_cons hc,
        Lexeme.startingAt_withGap l.gap, hstart]
    rw [marks, marks, Lexeme.line_of_some hnext, Lexeme.line_of_some hsome]
    by_cases ht : l.token = .endOfLine
    · simp [Lexeme.withGap, ht, List.filterMap_cons]
    · simp [Lexeme.withGap, ht, List.filterMap_cons]

/-- The tokens from a character on that is neither a space nor an end of line. -/
private theorem marks_cons {c : Char} (hspace : c ≠ ' ') (hnewline : c ≠ '\n') (cs : List Char) :
    marks (c :: cs) =
      (mark? (Lexeme.startingAt 0 c cs).1.text (Lexeme.startingAt 0 c cs).1.token).toList ++
        marks (Lexeme.startingAt 0 c cs).2 := by
  refine marks_of_next? (Lexeme.nextFrom?_cons hspace 0 cs) ?_
  rw [Ne, Lexeme.token_startingAt_eq_endOfLine_iff]
  exact hnewline

/-! ### Runs of other characters and of names -/

/-- A character that is neither a letter nor a digit is a token of its own. -/
private theorem startingAt_of_other {c : Char} (ha : Text.isAlphabetic c = false)
    (hd : c.isDigit = false) (gap : Nat) (cs : List Char) :
    Lexeme.startingAt gap c cs = (⟨gap, [c], (Token.ofSymbol? c).getD (.invalid c)⟩, cs) := by
  unfold Lexeme.startingAt
  cases Token.ofSymbol? c with
  | some t => rfl
  | none => simp [ha, hd]

/-- No letter stands for a token. -/
private theorem ofSymbol?_eq_none_of_isAlphabetic {c : Char} (ha : Text.isAlphabetic c = true) :
    Token.ofSymbol? c = none := by
  cases h : Token.ofSymbol? c with
  | none => rfl
  | some t =>
    rw [(Lexeme.not_operand_of_ofSymbol? h).2.2] at ha
    cases ha

/-- No digit stands for a token. -/
private theorem ofSymbol?_eq_none_of_isDigit {c : Char} (hd : c.isDigit = true) :
    Token.ofSymbol? c = none := by
  cases h : Token.ofSymbol? c with
  | none => rfl
  | some t =>
    rw [(Lexeme.not_operand_of_ofSymbol? h).2.1] at hd
    cases hd

/-- A letter starts a name. -/
private theorem startingAt_of_isAlphabetic {c : Char} (ha : Text.isAlphabetic c = true) (gap : Nat)
    (cs : List Char) :
    Lexeme.startingAt gap c cs =
      (⟨gap, c :: cs.takeWhile Lexeme.isNameChar,
        .name (String.ofList (c :: cs.takeWhile Lexeme.isNameChar))⟩,
        cs.dropWhile Lexeme.isNameChar) := by
  have hd : c.isDigit = false := by
    cases hd : c.isDigit with
    | false => rfl
    | true =>
      rw [Lexeme.isAlphabetic_eq_false_of_isDigit hd] at ha
      cases ha
  have hname : Lexeme.isNameChar c = true := by rw [Lexeme.isNameChar, ha, Bool.true_or]
  unfold Lexeme.startingAt
  rw [ofSymbol?_eq_none_of_isAlphabetic ha, TokenStream.splitName_cons hname]
  simp only [hd, ha, Bool.false_eq_true, if_false, if_true, Lexeme.splitName]

/-- A digit starts a number. -/
private theorem startingAt_of_isDigit {c : Char} (hd : c.isDigit = true) (gap : Nat)
    (cs : List Char) :
    Lexeme.startingAt gap c cs =
      (⟨gap, (Lexeme.splitNumber (c :: cs)).1,
        .number (Decimal.readLiteral (Lexeme.splitNumber (c :: cs)).1)⟩,
        (Lexeme.splitNumber (c :: cs)).2) := by
  unfold Lexeme.startingAt
  rw [ofSymbol?_eq_none_of_isDigit hd]
  simp [hd]

/-- Only the operators are marked outside names and numbers. -/
private theorem mark?_of_other (c : Char) :
    mark? [c] ((Token.ofSymbol? c).getD (.invalid c)) =
      if isOperator c then some ⟨[c], Style.boldColor .yellow⟩ else none := by
  by_cases h : isOperator c
  · rw [if_pos h]
    have hc : c ∈ ['+', '-', '*', '/', '~', '='] := by simpa [isOperator] using h
    simp only [List.mem_cons, List.not_mem_nil, or_false] at hc
    -- the six operators one by one
    rcases hc with rfl | rfl | rfl | rfl | rfl | rfl <;> rfl
  · rw [if_neg h]
    have hc : c ∉ ['+', '-', '*', '/', '~', '='] := by simpa [isOperator] using h
    simp only [List.mem_cons, List.not_mem_nil, or_false, not_or] at hc
    -- the end of the line is the other character that stands for a token, and it has no style
    unfold Token.ofSymbol?
    split <;> simp_all [mark?, tokenStyle?]

/-- A character outside names and numbers is marked if it is an operator. -/
private theorem marks_other {c : Char} (ha : Text.isAlphabetic c = false) (hd : c.isDigit = false)
    (hnewline : c ≠ '\n') (cs : List Char) :
    marks (c :: cs) =
      (if isOperator c then [⟨[c], Style.boldColor .yellow⟩] else []) ++ marks cs := by
  by_cases hspace : c = ' '
  · subst hspace
    exact marks_space cs
  · rw [marks_cons hspace hnewline, startingAt_of_other ha hd, mark?_of_other]
    split <;> rfl

/-- A name is marked as a whole. -/
private theorem marks_name {c : Char} (ha : Text.isAlphabetic c = true) (cs : List Char) :
    marks (c :: cs) = ⟨c :: cs.takeWhile Run.name.goesOn, Style.boldColor .lightBlue⟩ ::
      marks (cs.dropWhile Run.name.goesOn) := by
  have hspace : c ≠ ' ' := by
    rintro rfl
    exact absurd ha (by decide)
  have hnewline : c ≠ '\n' := by
    rintro rfl
    exact absurd ha (by decide)
  rw [marks_cons hspace hnewline, startingAt_of_isAlphabetic ha]
  rfl

/-! ### Runs of digits and points -/

/-- A number is marked, and what it leaves of a run is read anew. -/
private theorem marks_digit {c : Char} (hd : c.isDigit = true) (cs : List Char) :
    marks (c :: cs) = ⟨(Lexeme.splitNumber (c :: cs)).1, Style.color .lightGreen⟩ ::
      marks (Lexeme.splitNumber (c :: cs)).2 := by
  have hspace : c ≠ ' ' := by
    rintro rfl
    exact absurd hd (by decide)
  have hnewline : c ≠ '\n' := by
    rintro rfl
    exact absurd hd (by decide)
  rw [marks_cons hspace hnewline, startingAt_of_isDigit hd]
  rfl

/-- A point that starts no number is refused, and so it is not marked. -/
private theorem marks_point (cs : List Char) : marks ('.' :: cs) = marks cs :=
  marks_other (Lexeme.isAlphabetic_eq_false_of_lt (by decide)) (by decide) (by decide) cs

/-- What a number leaves of a run of digits and points is made of digits and points. -/
private theorem goesOn_of_mem_splitNumber_snd {cs : List Char}
    (hcs : ∀ c ∈ cs, Run.number.goesOn c = true) :
    ∀ x ∈ (Lexeme.splitNumber cs).2, Run.number.goesOn x = true := by
  intro x hx
  apply hcs
  rw [← Lexeme.splitNumber_append_eq cs]
  exact List.mem_append_right _ hx

/-- Behind a run of digits and points the tokens start anew. -/
private theorem marks_append {cs tail : List Char} (hcs : ∀ c ∈ cs, Run.number.goesOn c = true)
    (htail : ∀ x, tail.head? = some x → Run.number.goesOn x = false) :
    marks (cs ++ tail) = marks cs ++ marks tail := by
  induction hlen : cs.length using Nat.strong_induction_on generalizing cs with
  | _ n ih =>
    subst hlen
    cases cs with
    | nil => rw [marks_nil]; rfl
    | cons c cs =>
      have hrest := goesOn_of_mem_splitNumber_snd hcs
      rw [List.forall_mem_cons] at hcs
      rcases Bool.or_eq_true_iff.1 hcs.1 with hd | hpoint
      · -- the number ends within the run, or at its end
        have hsplit : Lexeme.splitNumber (c :: cs ++ tail) =
            ((Lexeme.splitNumber (c :: cs)).1, (Lexeme.splitNumber (c :: cs)).2 ++ tail) := by
          cases tail with
          | nil => simp
          | cons x more =>
            have hx : x.isDigit = false ∧ x ≠ '.' := by simpa [Run.goesOn] using htail x rfl
            exact Lexeme.splitNumber_append_cons hx.1 hx.2 (c :: cs) more
        have hshort := Lexeme.length_splitNumber_snd_le c cs hd
        rw [marks_digit hd, List.cons_append, marks_digit hd, ← List.cons_append, hsplit,
          ih _ (Nat.lt_succ_of_le hshort) hrest rfl, List.cons_append]
      · rw [beq_iff_eq.1 hpoint, List.cons_append, marks_point, marks_point]
        exact ih _ (Nat.lt_succ_self _) hcs.2 rfl

/-- There is no point among digits. -/
private theorem count_point_takeWhile_isDigit (cs : List Char) :
    (cs.takeWhile Char.isDigit).count '.' = 0 := by
  rw [List.count_eq_zero]
  intro hmem
  exact absurd (List.mem_takeWhile_imp hmem) (by decide)

/-- A number has at most one point. -/
private theorem count_point_splitNumber_le (cs : List Char) :
    (Lexeme.splitNumber cs).1.count '.' ≤ 1 := by
  unfold Lexeme.splitNumber
  split
  · simp [List.count_append, count_point_takeWhile_isDigit]
  · simp [count_point_takeWhile_isDigit]

/-- Digits with at most one point among them are one number. -/
private theorem splitNumber_eq_self {cs : List Char} (hcs : ∀ c ∈ cs, Run.number.goesOn c = true)
    (hcount : cs.count '.' ≤ 1) : Lexeme.splitNumber cs = (cs, []) := by
  induction cs with
  | nil => rfl
  | cons c cs ih =>
    rw [List.forall_mem_cons] at hcs
    by_cases hpoint : c = '.'
    · subst hpoint
      -- only digits are left behind the point
      have hdigits : ∀ x ∈ cs, x.isDigit = true := by
        intro x hx
        have hzero : '.' ∉ cs := by
          rw [← List.count_eq_zero]
          rw [List.count_cons_self] at hcount
          omega
        have hne : x ≠ '.' := by
          rintro rfl
          exact hzero hx
        simpa [Run.goesOn, hne] using hcs.2 x hx
      have hdrop : ('.' :: cs).dropWhile Char.isDigit = '.' :: cs := rfl
      rw [Lexeme.splitNumber_of_point hdrop, List.takeWhile_eq_self_iff.2 hdigits,
        List.dropWhile_eq_nil_iff.2 hdigits]
      rfl
    · have hd : c.isDigit = true := by simpa [Run.goesOn, hpoint] using hcs.1
      rw [List.count_cons_of_ne hpoint] at hcount
      rw [TokenStream.splitNumber_cons hd, ih hcs.2 hcount]

/-- A run of digits and points is one number if it has at most one point; otherwise its first
    number is shorter. -/
private theorem splitNumber_fst_eq_iff {cs : List Char}
    (hcs : ∀ c ∈ cs, Run.number.goesOn c = true) :
    (Lexeme.splitNumber cs).1 = cs ↔ cs.count '.' ≤ 1 := by
  constructor
  · intro h
    have hle := count_point_splitNumber_le cs
    rwa [h] at hle
  · intro h
    rw [splitNumber_eq_self hcs h]

/-- The tokens of a run of digits and points that are marked are numbers. -/
private theorem style_of_mem_marks {cs : List Char} (hcs : ∀ c ∈ cs, Run.number.goesOn c = true)
    {span : Span} (h : span ∈ marks cs) : span.style = Style.color .lightGreen := by
  induction hlen : cs.length using Nat.strong_induction_on generalizing cs with
  | _ n ih =>
    subst hlen
    cases cs with
    | nil =>
      rw [marks_nil] at h
      cases h
    | cons c cs =>
      have hrest := goesOn_of_mem_splitNumber_snd hcs
      rw [List.forall_mem_cons] at hcs
      -- a digit starts a number, a point is not marked
      rcases Bool.or_eq_true_iff.1 hcs.1 with hd | hpoint
      · rw [marks_digit hd, List.mem_cons] at h
        rcases h with rfl | h
        · rfl
        · exact ih _ (Nat.lt_succ_of_le (Lexeme.length_splitNumber_snd_le c cs hd)) hrest h rfl
      · rw [beq_iff_eq.1 hpoint, marks_point] at h
        exact ih _ (Nat.lt_succ_self _) hcs.2 h rfl

/-! ## Runs and tokens -/

/-- The tokens of a text are those of its runs. -/
theorem marks_eq_runs {cs : List Char} (h : '\n' ∉ cs) :
    marks cs = (runs cs).flatMap fun r => marks r.2 := by
  induction cs using runs.induct with
  | case1 => rw [marks_nil, runs, List.flatMap_nil]
  | case2 c cs run ih =>
    rw [List.mem_cons, not_or] at h
    have hdrop : '\n' ∉ cs.dropWhile run.goesOn := fun hmem =>
      h.2 ((List.dropWhile_suffix _).subset hmem)
    have htake : ∀ x ∈ cs.takeWhile run.goesOn, run.goesOn x = true :=
      fun x hx => List.mem_takeWhile_imp hx
    rw [runs, List.flatMap_cons, ← ih hdrop]
    show marks (c :: cs) = marks (c :: cs.takeWhile run.goesOn) ++ marks (cs.dropWhile run.goesOn)
    -- in each kind of run the tokens end where the run ends
    cases hrun : run with
    | other =>
      obtain ⟨ha, hd⟩ := Run.starting_eq_other_iff.1 hrun
      rw [Run.takeWhile_goesOn_other, Run.dropWhile_goesOn_other, marks_other ha hd (Ne.symm h.1),
        marks_other ha hd (Ne.symm h.1), marks_nil, List.append_nil]
    | name =>
      rw [hrun] at htake
      have ha := Run.starting_eq_name_iff.1 hrun
      rw [marks_name ha, marks_name ha, List.takeWhile_eq_self_iff.2 htake,
        List.dropWhile_eq_nil_iff.2 htake, marks_nil]
      rfl
    | number =>
      rw [hrun] at htake
      have hd := Run.starting_eq_number_iff.1 hrun
      have hchars : ∀ x ∈ c :: cs.takeWhile Run.number.goesOn, Run.number.goesOn x = true := by
        rw [List.forall_mem_cons]
        exact ⟨by rw [Run.goesOn, hd, Bool.true_or], htake⟩
      rw [← marks_append hchars, List.cons_append, List.takeWhile_append_dropWhile]
      -- the character behind the run is the first one with which it does not go on
      intro x hx
      have hnot := List.head?_dropWhile_not Run.number.goesOn cs
      rwa [hx] at hnot

/-- The styles of numbers, names and operators. -/
def markStyles : List Style :=
  [Style.color .lightGreen, Style.boldColor .lightBlue, Style.boldColor .yellow]

/-- The spans whose style is one of `styles`. -/
def spansIn (styles : List Style) (spans : List Span) : List Span :=
  spans.filter fun span => decide (span.style ∈ styles)

/-- `spansIn` looks at two lists one after the other. -/
private theorem spansIn_append (styles : List Style) (spans spans' : List Span) :
    spansIn styles (spans ++ spans') = spansIn styles spans ++ spansIn styles spans' :=
  List.filter_append spans spans'

variable {base : Style} {styles : List Style}

/-- A character outside names and numbers is marked if it is an operator. -/
private theorem spansIn_other (hbase : base ∉ markStyles) (hstyles : styles ⊆ markStyles)
    {chars : List Char} (hrun : IsRun (.other, chars)) (hnewline : '\n' ∉ chars) :
    spansIn styles (Run.other.spans base chars) = spansIn styles (marks chars) := by
  obtain ⟨c, rfl, ha, hd⟩ := hrun.eq_singleton
  have hc : c ≠ '\n' := by
    rintro rfl
    exact hnewline List.mem_cons_self
  -- a style that marks no token is not looked at
  have hspan : ∀ style, style ∉ markStyles → spansIn styles [⟨[c], style⟩] = [] := by
    intro style hstyle
    have hnot : style ∉ styles := fun hmem => hstyle (hstyles hmem)
    simp [spansIn, hnot]
  rw [marks_other ha hd hc, marks_nil, List.append_nil, Run.spans, if_pos rfl, List.map_singleton,
    otherSpan]
  by_cases hop : isOperator c
  · rw [if_pos hop, if_pos hop]
  · rw [if_neg hop, if_neg hop]
    split
    · exact hspan Style.plain (by decide)
    · exact hspan base hbase

/-- A name is one token. -/
private theorem marks_of_isRun_name (base : Style) {chars : List Char}
    (hrun : IsRun (.name, chars)) :
    marks chars = Run.name.spans base chars := by
  obtain ⟨c, cs, rfl, hc, hcs⟩ := hrun
  rw [marks_name (Run.starting_eq_name_iff.1 hc.symm), List.takeWhile_eq_self_iff.2 hcs,
    List.dropWhile_eq_nil_iff.2 hcs, marks_nil]
  rfl

/-- A run of digits and points is the number with which it starts, and other numbers. -/
private theorem marks_of_isRun_number {chars : List Char} (hrun : IsRun (.number, chars)) :
    (∀ c ∈ chars, Run.number.goesOn c = true) ∧
      marks chars = ⟨(Lexeme.splitNumber chars).1, Style.color .lightGreen⟩ ::
        marks (Lexeme.splitNumber chars).2 := by
  obtain ⟨c, cs, rfl, hc, hcs⟩ := hrun
  have hd := Run.starting_eq_number_iff.1 hc.symm
  refine ⟨?_, marks_digit hd cs⟩
  rw [List.forall_mem_cons]
  exact ⟨by rw [Run.goesOn, hd, Bool.true_or], hcs⟩

/-- A run of digits and points is one number if it has at most one point. -/
theorem marks_number_eq_iff (base : Style) {chars : List Char} (hrun : IsRun (.number, chars)) :
    marks chars = Run.number.spans base chars ↔ chars.count '.' ≤ 1 := by
  obtain ⟨hchars, hmarks⟩ := marks_of_isRun_number hrun
  rw [← splitNumber_fst_eq_iff hchars]
  constructor
  · intro h
    rw [hmarks] at h
    -- the first token is the whole run
    exact congrArg Span.text (List.cons.inj h).1
  · intro h
    rw [hmarks, splitNumber_eq_self hchars ((splitNumber_fst_eq_iff hchars).1 h), marks_nil]
    rfl

/-- A run agrees with its tokens, in the styles that are looked at, unless it is a number with a
    second point and the style of numbers is one of them. -/
private theorem spansIn_run_eq (hbase : base ∉ markStyles) (hstyles : styles ⊆ markStyles)
    {run : Run} {chars : List Char} (hrun : IsRun (run, chars)) (hnewline : '\n' ∉ chars)
    (hcount : run = .number → Style.color .lightGreen ∈ styles → chars.count '.' ≤ 1) :
    spansIn styles (run.spans base chars) = spansIn styles (marks chars) := by
  cases run with
  | other => exact spansIn_other hbase hstyles hrun hnewline
  | name => rw [marks_of_isRun_name base hrun]
  | number =>
    by_cases hgreen : Style.color .lightGreen ∈ styles
    · rw [(marks_number_eq_iff base hrun).2 (hcount rfl hgreen)]
    · -- neither the run nor what its tokens mark is looked at
      have hnil : ∀ spans : List Span, (∀ span ∈ spans, span.style = Style.color .lightGreen) →
          spansIn styles spans = [] := by
        intro spans h
        simp only [spansIn, List.filter_eq_nil_iff, decide_eq_true_eq]
        intro span hspan
        rwa [h span hspan]
      rw [hnil _ fun span => style_of_mem_marks (marks_of_isRun_number hrun).1]
      apply hnil
      simp [Run.spans, Run.style]

/-- The spans of runs agree with the tokens of the runs, in the styles that are looked at, if the
    style of numbers is not one of them or no number has a second point. -/
private theorem spansIn_flatMap_eq_iff (hbase : base ∉ markStyles) (hstyles : styles ⊆ markStyles)
    {rs : List (Run × List Char)} (hrs : ∀ r ∈ rs, IsRun r ∧ '\n' ∉ r.2) :
    spansIn styles (rs.flatMap fun r => r.1.spans base r.2) =
        spansIn styles (rs.flatMap fun r => marks r.2) ↔
      (Style.color .lightGreen ∈ styles →
        ∀ chars, (Run.number, chars) ∈ rs → chars.count '.' ≤ 1) := by
  induction rs with
  | nil => simp
  | cons r rs ih =>
    obtain ⟨run, chars⟩ := r
    rw [List.forall_mem_cons] at hrs
    obtain ⟨⟨hrun, hnewline⟩, hrs⟩ := hrs
    rw [List.flatMap_cons, List.flatMap_cons, spansIn_append, spansIn_append]
    by_cases hcount : run = .number → Style.color .lightGreen ∈ styles → chars.count '.' ≤ 1
    · rw [spansIn_run_eq hbase hstyles hrun hnewline hcount, List.append_cancel_left_eq, ih hrs]
      constructor
      · intro h hgreen chars' hmem
        rcases List.mem_cons.1 hmem with heq | hmem
        · obtain ⟨rfl, rfl⟩ := Prod.mk.inj heq
          exact hcount rfl hgreen
        · exact h hgreen chars' hmem
      · exact fun h hgreen chars' hmem => h hgreen chars' (List.mem_cons_of_mem _ hmem)
    · -- the first number that is read is shorter than the run, so the lists differ here
      obtain ⟨rfl, hgreen, hmany⟩ : run = .number ∧ Style.color .lightGreen ∈ styles ∧
          ¬ chars.count '.' ≤ 1 := by simpa only [Classical.not_imp] using hcount
      obtain ⟨hchars, hmarks⟩ := marks_of_isRun_number hrun
      constructor
      · intro h
        rw [hmarks] at h
        simp only [spansIn, Run.spans, Run.style, reduceCtorEq, if_false, hgreen, decide_true,
          List.filter_cons_of_pos, List.cons_append, List.cons.injEq, Span.mk.injEq] at h
        exact absurd ((splitNumber_fst_eq_iff hchars).1 h.1.1.symm) hmany
      · exact fun h => absurd (h hgreen chars List.mem_cons_self) hmany

/-- The spans in the style of numbers are the runs of digits and points. -/
private theorem mem_highlight_number_iff (hbase : base ∉ markStyles) {cs chars : List Char} :
    ⟨chars, Style.color .lightGreen⟩ ∈ highlight base cs ↔ (Run.number, chars) ∈ runs cs := by
  have hother : base ≠ Style.color .lightGreen := by
    rintro rfl
    exact hbase (by decide)
  rw [highlight_eq_runs, List.mem_flatMap]
  constructor
  · rintro ⟨⟨run, chars'⟩, hmem, hspan⟩
    -- names, operators, parentheses and the rest have other styles
    cases run with
    | number =>
      have hchars : chars = chars' := by simpa [Run.spans, Run.style] using hspan
      rwa [hchars]
    | name => simp [Run.spans, Run.style, Style.color, Style.boldColor] at hspan
    | other =>
      rw [Run.spans, if_pos rfl, List.mem_map] at hspan
      obtain ⟨c, -, hc⟩ := hspan
      have hstyle := congrArg Span.style hc
      unfold otherSpan at hstyle
      split at hstyle
      · simp [Style.color, Style.boldColor] at hstyle
      · split at hstyle
        · simp [Style.color, Style.plain] at hstyle
        · exact absurd hstyle hother
  · intro hmem
    exact ⟨_, hmem, by simp [Run.spans, Run.style]⟩

/-- The tokens of a text and its spans agree, in the styles that are looked at, if the style of
    numbers is not one of them or no number has a second point. -/
private theorem spansIn_highlight_eq_iff (hbase : base ∉ markStyles) (hstyles : styles ⊆ markStyles)
    {cs : List Char} (hline : '\n' ∉ cs) :
    spansIn styles (highlight base cs) = spansIn styles (marks cs) ↔
      (Style.color .lightGreen ∈ styles → ∀ chars,
        ⟨chars, Style.color .lightGreen⟩ ∈ highlight base cs → chars.count '.' ≤ 1) := by
  have hrs : ∀ r ∈ runs cs, IsRun r ∧ '\n' ∉ r.2 := by
    intro r hr
    refine ⟨isRun_of_mem_runs hr, fun hmem => hline ?_⟩
    rw [← text_runs cs]
    exact List.mem_flatMap.2 ⟨r, hr, hmem⟩
  simp only [mem_highlight_number_iff hbase]
  rw [highlight_eq_runs, marks_eq_runs hline]
  exact spansIn_flatMap_eq_iff hbase hstyles hrs

/-! ## The tokens that are read -/

open Lexeme (Reading readings)
open TokenStream (Reads)

/-- The stream of the tokens of one line. -/
def lineStream (text : List Char) : TokenStream LineQueue := TokenStream.new ⟨[text]⟩ none

/-- The spans of tokens that have been read. -/
def tokenSpans (rs : List Reading) : List Span :=
  rs.filterMap fun r => mark? r.text r.token

/-- The tokens of lexemes that are read are marked as the lexemes are. -/
private theorem tokenSpans_readings (n : Nat) (ls : List Lexeme) :
    tokenSpans (readings n ls) = ls.filterMap fun l => mark? l.text l.token := by
  induction ls generalizing n with
  | nil => rfl
  | cons l ls ih =>
    have hls := ih (n + l.size)
    rw [tokenSpans] at hls
    rw [readings, tokenSpans, List.filterMap_cons, List.filterMap_cons, hls]

/-- `readings` goes on behind the first lexemes. -/
private theorem readings_append (n : Nat) (ls ls' : List Lexeme) :
    readings n (ls ++ ls') = readings n ls ++ readings (n + Lexeme.totalSize ls) ls' := by
  induction ls generalizing n with
  | nil => rfl
  | cons l ls ih =>
    rw [List.cons_append, readings, ih, readings, Lexeme.totalSize_cons,
      List.cons_append, Nat.add_assoc]

/-- `readings` reports the tokens of the lexemes. -/
private theorem map_token_readings (n : Nat) (ls : List Lexeme) :
    (readings n ls).map Reading.token = ls.map Lexeme.token := by
  induction ls generalizing n with
  | nil => rfl
  | cons l ls ih => rw [readings, List.map_cons, List.map_cons, ih]

/-- The lexemes of a text are read from its line, and then the end of the line. -/
private theorem exists_reads_line {text : List Char} (hline : '\n' ∉ text) :
    ∃ stream, Reads TokenStream.scan (lineStream text)
      (readings 0 (Lexeme.line text) ++ [⟨.endOfLine, ['\n'], text.length + 1⟩]) stream := by
  let s := lineStream text
  -- the stream once its line is in the buffer
  let s₀ : TokenStream LineQueue := { s with source := ⟨[]⟩, cursor := LineCursor.load text }
  have hfill : s.fill = (.ok (), s₀) :=
    TokenStream.fill_of_readLine rfl rfl (by simp [s, lineStream, TokenStream.new])
  have hall : Reads TokenStream.scan s₀ (readings 0 (Lexeme.line (text ++ ['\n']))) _ :=
    TokenStream.reads_acceptAll (fun _ hs => TokenStream.scan_eq_next hs)
      (LineCursor.terminated_load text) rfl
  -- the spaces behind the last lexeme are read with the end of the line
  obtain ⟨gap, hls, hwritten⟩ := Lexeme.exists_line_append_newline text hline
  have hlength : Lexeme.totalSize (Lexeme.line text) + gap = text.length := by
    rw [← Lexeme.length_flatMap_written]
    simpa using congrArg List.length hwritten
  have hlast : (⟨gap, ['\n'], .endOfLine⟩ : Lexeme).size = gap + 1 := rfl
  rw [hls [], readings_append, readings, readings, Nat.zero_add, hlast, ← Nat.add_assoc,
    hlength] at hall
  exact ⟨_, TokenStream.reads_of_read_eq (TokenStream.scan_of_fill_ok hfill) (by simp) hall⟩

/-- The spans that mark names are the names that are read, those that mark operators the operators,
    and those that mark numbers and names, or numbers, names and operators, are the operands, or all
    of them, in the order in which they are read, as long as no span of a number has a second point.
    A second point makes the span too long: the number that is read ends in front of it. -/
theorem highlight_agrees_with_tokens {base : Style} (hbase : base ∉ markStyles) {text : List Char}
    (hline : '\n' ∉ text) :
    ∃ rs stream, Reads TokenStream.scan (lineStream text)
        (rs ++ [⟨.endOfLine, ['\n'], text.length + 1⟩]) stream ∧
      (∀ r ∈ rs, r.token ≠ .endOfLine) ∧
      ∀ styles ⊆ markStyles,
        (spansIn styles (highlight base text) = spansIn styles (tokenSpans rs) ↔
          (Style.color .lightGreen ∈ styles → ∀ span ∈ highlight base text,
            span.style = Style.color .lightGreen → span.text.count '.' ≤ 1)) := by
  obtain ⟨stream, hreads⟩ := exists_reads_line hline
  refine ⟨readings 0 (Lexeme.line text), stream, hreads, ?_, ?_⟩
  · intro r hr
    -- a token that was read is one of a lexeme, and no lexeme of the text is the end of the line
    have htoken : r.token ∈ (Lexeme.line text).map Lexeme.token := by
      rw [← map_token_readings 0]
      exact List.mem_map_of_mem hr
    obtain ⟨l, hl, heq⟩ := List.mem_map.1 htoken
    rw [← heq]
    exact Lexeme.token_ne_endOfLine_of_mem_line hline hl
  · intro styles hstyles
    rw [tokenSpans_readings, ← marks, spansIn_highlight_eq_iff hbase hstyles hline]
    constructor
    · rintro h hgreen ⟨chars, style⟩ hmem rfl
      exact h hgreen chars hmem
    · exact fun h hgreen chars hmem => h hgreen _ hmem rfl

/-- In `x1=12.5 3+` the name, the numbers and the operators are marked as they are read. -/
theorem highlight_agrees_on_assignment :
    Style.color .magenta ∉ markStyles ∧ '\n' ∉ ['x', '1', '=', '1', '2', '.', '5', ' ', '3', '+'] ∧
      ∃ rs stream,
        Reads TokenStream.scan (lineStream ['x', '1', '=', '1', '2', '.', '5', ' ', '3', '+'])
          (rs ++ [⟨.endOfLine, ['\n'], 11⟩]) stream ∧
        spansIn markStyles (tokenSpans rs) =
          [⟨['x', '1'], Style.boldColor .lightBlue⟩, ⟨['='], Style.boldColor .yellow⟩,
            ⟨['1', '2', '.', '5'], Style.color .lightGreen⟩, ⟨['3'], Style.color .lightGreen⟩,
            ⟨['+'], Style.boldColor .yellow⟩] := by
  have hbase : Style.color .magenta ∉ markStyles := by decide
  have hline : '\n' ∉ ['x', '1', '=', '1', '2', '.', '5', ' ', '3', '+'] := by decide
  refine ⟨hbase, hline, ?_⟩
  obtain ⟨rs, stream, hreads, -, hspans⟩ := highlight_agrees_with_tokens hbase hline
  refine ⟨rs, stream, hreads, ?_⟩
  rw [← (hspans markStyles (List.Subset.refl _)).2 (by decide)]
  decide

/-- `1.2.3` is shown as one number, although the number that is read ends at the second point, which
    is refused, and `3` is a number of its own. -/
theorem highlight_joins_second_point :
    highlight (Style.color .magenta) ['1', '.', '2', '.', '3'] =
        [⟨['1', '.', '2', '.', '3'], Style.color .lightGreen⟩] ∧
      ∃ stream, Reads TokenStream.scan (lineStream ['1', '.', '2', '.', '3'])
        [⟨.number (Decimal.readLiteral ['1', '.', '2']), ['1', '.', '2'], 3⟩,
          ⟨.invalid '.', ['.'], 4⟩, ⟨.number (Decimal.readLiteral ['3']), ['3'], 5⟩,
          ⟨.endOfLine, ['\n'], 6⟩] stream := by
  have hlexemes : Lexeme.line ['1', '.', '2', '.', '3'] =
      [⟨0, ['1', '.', '2'], .number (Decimal.readLiteral ['1', '.', '2'])⟩,
        ⟨0, ['.'], .invalid '.'⟩, ⟨0, ['3'], .number (Decimal.readLiteral ['3'])⟩] := by
    rw [Lexeme.line_of_some rfl, if_neg (by simp), Lexeme.line_of_some rfl, if_neg (by simp),
      Lexeme.line_of_some rfl, if_neg (by simp), Lexeme.line_of_none rfl]
    rfl
  refine ⟨by decide, ?_⟩
  have hline : '\n' ∉ ['1', '.', '2', '.', '3'] := by decide
  have hreads := exists_reads_line hline
  rw [hlexemes] at hreads
  exact hreads

end DeskCalc.Desk
