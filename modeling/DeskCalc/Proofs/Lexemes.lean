import DeskCalc.Lexeme
import Mathlib.Data.List.TakeWhile

/-!
# Cutting a text into lexemes

A lexeme ends where the text ends or where a character stands that cannot go on with it.  A space
and an end of line are such characters for every lexeme, so the lexemes in front of one do not
depend on what follows it.

## Key results

- `exists_line_append_newline`: the lexemes up to an end of line are those of the text before it and
  then the end of line, and written out with their spaces they are the line
- `standalone_of_mem_line`: the text of a lexeme, taken alone, is read as the same lexeme
- `line_flatMap_written`: lexemes written out with spaces between them are read back
-/

namespace DeskCalc

namespace Lexeme

/-- The characters that reading the lexeme consumes. -/
def written (l : Lexeme) : List Char := List.replicate l.gap ' ' ++ l.text

/-- The lexeme behind `gap` spaces. -/
def withGap (gap : Nat) (l : Lexeme) : Lexeme := { l with gap }

/-- Reading a lexeme consumes as many characters as it is long. -/
@[simp] theorem length_written (l : Lexeme) : l.written.length = l.size := by
  simp [written, size]

/-- No lexeme that started earlier goes on with `c`. -/
def IsStop (c : Char) : Prop := isNameChar c = false ∧ c ≠ '.'

/-- No lexeme goes on with a space. -/
theorem isStop_space : IsStop ' ' := by unfold IsStop; decide

/-- No lexeme goes on with an end of line. -/
theorem isStop_newline : IsStop '\n' := by unfold IsStop; decide

/-- No digit is a stop. -/
theorem IsStop.isDigit_eq_false {c : Char} (h : IsStop c) : c.isDigit = false := by
  have hc := h.1
  simp only [isNameChar, Bool.or_eq_false_iff] at hc
  exact hc.2

/-! ## Scans end at a stop -/

/-- What a scan takes does not depend on what follows a character that ends it. -/
private theorem takeWhile_append_cons {p : Char → Bool} {x : Char} (hx : p x = false)
    (cs more : List Char) : (cs ++ x :: more).takeWhile p = cs.takeWhile p := by
  -- the character stops the scan at the latest, and the rest of the text is never seen
  induction cs with
  | nil => simp [hx]
  | cons c cs ih => simp only [List.cons_append, List.takeWhile_cons, ih]

/-- What a scan leaves is followed by the character that ends it. -/
private theorem dropWhile_append_cons {p : Char → Bool} {x : Char} (hx : p x = false)
    (cs more : List Char) : (cs ++ x :: more).dropWhile p = cs.dropWhile p ++ x :: more := by
  induction cs with
  | nil => simp [hx]
  | cons c cs ih =>
    simp only [List.cons_append, List.dropWhile_cons, ih]
    split <;> rfl

/-- A number with a point goes on with the digits behind it. -/
theorem splitNumber_of_point {cs more : List Char} (h : cs.dropWhile Char.isDigit = '.' :: more) :
    splitNumber cs =
      (cs.takeWhile Char.isDigit ++ '.' :: more.takeWhile Char.isDigit,
        more.dropWhile Char.isDigit) := by
  simp only [splitNumber, h]

/-- A number without a point is a run of digits. -/
theorem splitNumber_of_no_point {cs : List Char}
    (h : ∀ more, cs.dropWhile Char.isDigit ≠ '.' :: more) :
    splitNumber cs = (cs.takeWhile Char.isDigit, cs.dropWhile Char.isDigit) := by
  unfold splitNumber
  split
  · next more hm => exact absurd hm (h more)
  · rfl

/-- A number ends in front of a character that is neither a digit nor a point. -/
theorem splitNumber_append_cons {x : Char} (hd : x.isDigit = false) (hx : x ≠ '.')
    (cs more : List Char) :
    splitNumber (cs ++ x :: more) = ((splitNumber cs).1, (splitNumber cs).2 ++ x :: more) := by
  have hdrop := dropWhile_append_cons hd cs more
  -- whether the number has a point is decided in front of the stop
  by_cases hpoint : ∃ rest, cs.dropWhile Char.isDigit = '.' :: rest
  · obtain ⟨rest, hrest⟩ := hpoint
    rw [hrest, List.cons_append] at hdrop
    rw [splitNumber_of_point hdrop, splitNumber_of_point hrest, takeWhile_append_cons hd,
      takeWhile_append_cons hd, dropWhile_append_cons hd]
  · have hcs : ∀ rest, cs.dropWhile Char.isDigit ≠ '.' :: rest := fun rest h => hpoint ⟨rest, h⟩
    -- the stop is not the point that the number lacks
    have happend : ∀ rest, (cs ++ x :: more).dropWhile Char.isDigit ≠ '.' :: rest := by
      intro rest h
      rw [hdrop] at h
      cases htail : cs.dropWhile Char.isDigit with
      | nil => rw [htail] at h; exact hx (List.cons.inj h).1
      | cons a tail =>
        rw [htail] at h
        exact hcs tail (by rw [htail, (List.cons.inj h).1])
    rw [splitNumber_of_no_point happend, splitNumber_of_no_point hcs, takeWhile_append_cons hd,
      hdrop]

/-- A number ends in front of a stop. -/
theorem splitNumber_append {x : Char} (hx : IsStop x) (cs more : List Char) :
    splitNumber (cs ++ x :: more) = ((splitNumber cs).1, (splitNumber cs).2 ++ x :: more) :=
  splitNumber_append_cons hx.isDigit_eq_false hx.2 cs more

/-- A name ends in front of a stop. -/
theorem splitName_append {x : Char} (hx : IsStop x) (cs more : List Char) :
    splitName (cs ++ x :: more) = ((splitName cs).1, (splitName cs).2 ++ x :: more) := by
  unfold splitName
  rw [takeWhile_append_cons hx.1, dropWhile_append_cons hx.1]

/-- A lexeme that starts before a stop does not depend on what follows it. -/
private theorem startingAt_append {x : Char} (hx : IsStop x) (gap : Nat) (c : Char)
    (cs more : List Char) :
    startingAt gap c (cs ++ x :: more) =
      ((startingAt gap c cs).1, (startingAt gap c cs).2 ++ x :: more) := by
  unfold startingAt
  rw [← List.cons_append, splitNumber_append hx, splitName_append hx]
  split
  · rfl
  · split
    · rfl
    · split <;> rfl

/-- The next lexeme before a stop does not depend on what follows it. -/
private theorem nextFrom?_append {x : Char} (hx : IsStop x) {gap : Nat} {cs rest : List Char}
    {l : Lexeme} (h : nextFrom? gap cs = some (l, rest)) (more : List Char) :
    nextFrom? gap (cs ++ x :: more) = some (l, rest ++ x :: more) := by
  -- spaces are passed over one by one, each of them counted in the gap
  induction cs generalizing gap with
  | nil => simp [nextFrom?] at h
  | cons c cs ih =>
    rw [List.cons_append, nextFrom?]
    rw [nextFrom?] at h
    split at h
    · next hc => rw [if_pos hc]; exact ih h
    · next hc => rw [if_neg hc, startingAt_append hx, Option.some.inj h]

/-! ## A lexeme and its text -/

/-- Cutting a number off loses no character. -/
theorem splitNumber_append_eq (cs : List Char) : (splitNumber cs).1 ++ (splitNumber cs).2 = cs := by
  have h := List.takeWhile_append_dropWhile (p := Char.isDigit) (l := cs)
  unfold splitNumber
  -- with a point, there are digits on both sides of it
  split
  · next more hm =>
    rw [List.append_assoc, List.cons_append, List.takeWhile_append_dropWhile, ← hm]
    exact h
  · exact h

/-- Cutting a name off loses no character. -/
private theorem splitName_append_eq (cs : List Char) : (splitName cs).1 ++ (splitName cs).2 = cs :=
  List.takeWhile_append_dropWhile

/-- A lexeme keeps the number of spaces that were counted before it. -/
theorem gap_startingAt (gap : Nat) (c : Char) (cs : List Char) :
    (startingAt gap c cs).1.gap = gap := by
  unfold startingAt
  split
  · rfl
  · split
    · rfl
    · split <;> rfl

/-- A lexeme and what is left behind it make up the text. -/
theorem text_append_startingAt (gap : Nat) (c : Char) (cs : List Char) :
    (startingAt gap c cs).1.text ++ (startingAt gap c cs).2 = c :: cs := by
  unfold startingAt
  split
  · rfl
  · split
    · exact splitNumber_append_eq (c :: cs)
    · split
      · exact splitName_append_eq (c :: cs)
      · rfl

/-- Only the character that ends a line is read as the end of a line. -/
theorem ofSymbol?_eq_endOfLine_iff {c : Char} :
    Token.ofSymbol? c = some .endOfLine ↔ c = '\n' := by
  constructor
  · intro h
    unfold Token.ofSymbol? at h
    split at h <;> simp at h ⊢
  · rintro rfl
    rfl

/-- The lexeme at a character is the end of line exactly when the character is. -/
theorem token_startingAt_eq_endOfLine_iff (gap : Nat) (c : Char) (cs : List Char) :
    (startingAt gap c cs).1.token = .endOfLine ↔ c = '\n' := by
  rw [← ofSymbol?_eq_endOfLine_iff]
  unfold startingAt
  split
  · next t ht => simp [ht]
  · next hnone =>
    simp only [hnone, reduceCtorEq, iff_false]
    split
    · simp
    · split <;> simp

/-- The lexeme at an end of line. -/
theorem startingAt_newline (gap : Nat) (cs : List Char) :
    startingAt gap '\n' cs = (⟨gap, ['\n'], .endOfLine⟩, cs) := rfl

/-! ## The spaces before a lexeme -/

/-- Spaces in front of a text are counted. -/
theorem nextFrom?_replicate_append (gap k : Nat) (cs : List Char) :
    nextFrom? gap (List.replicate k ' ' ++ cs) = nextFrom? (gap + k) cs := by
  induction k generalizing gap with
  | zero => rfl
  | succ k ih =>
    rw [List.replicate_succ, List.cons_append, nextFrom?, if_pos rfl, ih]
    congr 1
    omega

/-- A lexeme starts at any character other than a space. -/
theorem nextFrom?_cons {c : Char} (hc : c ≠ ' ') (gap : Nat) (cs : List Char) :
    nextFrom? gap (c :: cs) = some (startingAt gap c cs) := by
  rw [nextFrom?, if_neg hc]

/-- A text without a lexeme holds spaces only. -/
theorem nextFrom?_eq_none_iff {gap : Nat} {cs : List Char} :
    nextFrom? gap cs = none ↔ cs = List.replicate cs.length ' ' := by
  -- any other character starts a lexeme, so there is one
  induction cs generalizing gap with
  | nil => simp [nextFrom?]
  | cons c cs ih =>
    rw [nextFrom?, List.length_cons, List.replicate_succ, List.cons.injEq]
    split
    · next hc => rw [ih]; simp [hc]
    · next hc => simp [hc]

/-- The first lexeme starts at the first character that is not a space. -/
private theorem nextFrom?_eq_some {gap : Nat} {cs rest : List Char} {l : Lexeme}
    (h : nextFrom? gap cs = some (l, rest)) :
    ∃ k c cs', c ≠ ' ' ∧ cs = List.replicate k ' ' ++ c :: cs' ∧
      startingAt (gap + k) c cs' = (l, rest) := by
  induction cs generalizing gap with
  | nil => simp [nextFrom?] at h
  | cons c cs ih =>
    rw [nextFrom?] at h
    split at h
    · next hc =>
      obtain ⟨k, c', cs', hc', rfl, hs⟩ := ih h
      exact ⟨k + 1, c', cs', hc', by simp [List.replicate_succ, hc], by rw [← hs]; congr 1; omega⟩
    · next hc => exact ⟨0, c, cs, hc, rfl, Option.some.inj h⟩

/-- The next lexeme starts behind its spaces. -/
theorem next?_eq_some {cs rest : List Char} {l : Lexeme} (h : next? cs = some (l, rest)) :
    ∃ c cs', c ≠ ' ' ∧ cs = List.replicate l.gap ' ' ++ c :: cs' ∧
      startingAt l.gap c cs' = (l, rest) := by
  obtain ⟨k, c, cs', hc, hcs, hs⟩ := nextFrom?_eq_some h
  have hgap := gap_startingAt (0 + k) c cs'
  rw [hs, Nat.zero_add] at hgap
  simp only at hgap
  rw [Nat.zero_add, ← hgap] at hs
  exact ⟨c, cs', hc, by rw [hgap]; exact hcs, hs⟩

/-- A lexeme with the spaces before it, and what is left behind it, make up the text. -/
theorem written_append_of_next? {cs rest : List Char} {l : Lexeme}
    (h : next? cs = some (l, rest)) : l.written ++ rest = cs := by
  obtain ⟨c, cs', -, rfl, hs⟩ := next?_eq_some h
  have htext := text_append_startingAt l.gap c cs'
  rw [hs] at htext
  rw [written, List.append_assoc, htext]

/-- The end of line is read from the first character that is not a space. -/
theorem token_eq_endOfLine_of_next? {cs rest : List Char} {l : Lexeme}
    (h : next? cs = some (l, rest)) (ht : l.token = .endOfLine) :
    cs = List.replicate l.gap ' ' ++ '\n' :: rest ∧ l.text = ['\n'] := by
  obtain ⟨c, cs', -, rfl, hs⟩ := next?_eq_some h
  have hc : c = '\n' := by
    rw [← token_startingAt_eq_endOfLine_iff l.gap c cs', hs]
    exact ht
  subst hc
  rw [startingAt_newline] at hs
  obtain ⟨hl, rfl⟩ := Prod.mk.inj hs
  exact ⟨rfl, by rw [← hl]⟩

/-- A lexeme that is no end of line leaves an end of line to what is behind it. -/
theorem newline_mem_of_next? {cs rest : List Char} {l : Lexeme} (h : next? cs = some (l, rest))
    (ht : l.token ≠ .endOfLine) (hmem : '\n' ∈ cs) : '\n' ∈ rest := by
  obtain ⟨front, more, rfl⟩ := List.append_of_mem hmem
  -- either the lexeme ends before the end of line, or there is none before it
  cases hnext : next? front with
  | none =>
    -- only spaces stand before the end of line, so the lexeme is the end of line
    have hspaces := nextFrom?_eq_none_iff.1 hnext
    rw [hspaces, next?, nextFrom?_replicate_append, nextFrom?_cons (by decide),
      startingAt_newline] at h
    cases h
    exact absurd rfl ht
  | some p =>
    have happend := nextFrom?_append isStop_newline hnext more
    rw [next?, happend] at h
    cases h
    exact List.mem_append_right _ List.mem_cons_self

/-! ## The lexemes of a line -/

/-- A text without a lexeme is cut into none. -/
theorem line_of_none {cs : List Char} (h : next? cs = none) : line cs = [] := by
  rw [line]
  split
  · rfl
  · next h' => rw [h] at h'; cases h'

/-- The first lexeme of a line, and those of the rest unless it is the end of line. -/
theorem line_of_some {cs rest : List Char} {l : Lexeme} (h : next? cs = some (l, rest)) :
    line cs = if l.token = .endOfLine then [l] else l :: line rest := by
  rw [line]
  split
  · next h' => rw [h] at h'; cases h'
  · next h' => rw [h] at h'; cases h'; rfl

/-- The lexemes up to an end of line are those of the text before it and then the end of line,
    whatever stands behind it. -/
theorem exists_line_append_newline (cs : List Char) (h : '\n' ∉ cs) :
    ∃ gap, (∀ more, line (cs ++ '\n' :: more) = line cs ++ [⟨gap, ['\n'], .endOfLine⟩]) ∧
      (line cs).flatMap written ++ List.replicate gap ' ' = cs := by
  induction cs using line.induct with
  | case1 cs hnone =>
    -- the spaces at the end of the text stand before the end of line
    have hspaces := nextFrom?_eq_none_iff.1 hnone
    refine ⟨cs.length, fun more => ?_, ?_⟩
    · have hnext : next? (cs ++ '\n' :: more) =
          some (⟨cs.length, ['\n'], .endOfLine⟩, more) := by
        rw [hspaces, next?, nextFrom?_replicate_append, List.length_replicate,
          nextFrom?_cons (by decide), startingAt_newline, Nat.zero_add]
      rw [line_of_some hnext, if_pos rfl, line_of_none hnone, List.nil_append]
    · rw [line_of_none hnone]
      exact hspaces.symm
  | case2 cs l rest hnext ht =>
    obtain ⟨rfl, -⟩ := token_eq_endOfLine_of_next? hnext ht
    simp at h
  | case3 cs l rest hnext ht ih =>
    have hcs := written_append_of_next? hnext
    obtain ⟨gap, hline, hwritten⟩ := ih fun hmem => h (hcs ▸ List.mem_append_right _ hmem)
    refine ⟨gap, fun more => ?_, ?_⟩
    · rw [line_of_some (nextFrom?_append isStop_newline hnext more), if_neg ht, hline,
        line_of_some hnext, if_neg ht, List.cons_append]
    · rw [line_of_some hnext, if_neg ht, List.flatMap_cons, List.append_assoc, hwritten, hcs]

/-- What stands behind an end of line does not matter to the lexemes up to it. -/
theorem line_append_newline {cs : List Char} (h : '\n' ∉ cs) (more : List Char) :
    line (cs ++ '\n' :: more) = line (cs ++ ['\n']) := by
  obtain ⟨gap, hline, -⟩ := exists_line_append_newline cs h
  rw [hline, hline []]

/-- A text without an end of line has no lexeme that is one. -/
theorem token_ne_endOfLine_of_mem_line {cs : List Char} (h : '\n' ∉ cs) {l : Lexeme}
    (hl : l ∈ line cs) : l.token ≠ .endOfLine := by
  -- along the recursion that cuts the line
  induction cs using line.induct with
  | case1 cs hnone => simp [line_of_none hnone] at hl
  | case2 cs l' rest hnext ht =>
    obtain ⟨rfl, -⟩ := token_eq_endOfLine_of_next? hnext ht
    simp at h
  | case3 cs l' rest hnext ht ih =>
    have hcs := written_append_of_next? hnext
    rw [line_of_some hnext, if_neg ht] at hl
    rcases List.mem_cons.1 hl with rfl | hl
    · exact ht
    · exact ih (fun hmem => h (hcs ▸ List.mem_append_right _ hmem)) hl

/-- Each lexeme of a text is the first one of what the lexemes before it leave. -/
theorem next?_of_line_eq_append {cs : List Char} {ls₁ ls₂ : List Lexeme} {l : Lexeme}
    (h : line cs = ls₁ ++ l :: ls₂) :
    ∃ rest more, cs = ls₁.flatMap written ++ rest ∧ next? rest = some (l, more) := by
  -- the lexemes before `l` are taken off the text one by one
  induction ls₁ generalizing cs with
  | nil =>
    cases hnext : next? cs with
    | none => rw [line_of_none hnext] at h; cases h
    | some p =>
      obtain ⟨l', more⟩ := p
      rw [line_of_some hnext] at h
      split at h <;> exact ⟨cs, more, rfl, by rw [hnext, (List.cons.inj h).1]⟩
  | cons a ls₁ ih =>
    cases hnext : next? cs with
    | none => rw [line_of_none hnext] at h; cases h
    | some p =>
      obtain ⟨l', more⟩ := p
      rw [line_of_some hnext] at h
      split at h
      · simp at h
      · obtain ⟨rfl, htail⟩ := List.cons.inj h
        obtain ⟨rest, more', rfl, hrest⟩ := ih htail
        exact ⟨rest, more', by
          rw [List.flatMap_cons, List.append_assoc, written_append_of_next? hnext], hrest⟩

/-- The lexemes up to one of a line, written out, are the start of the text. -/
theorem eq_flatMap_written_append {cs : List Char} {ls₁ ls₂ : List Lexeme} {l : Lexeme}
    (h : line cs = ls₁ ++ l :: ls₂) : ∃ more, cs = (ls₁ ++ [l]).flatMap written ++ more := by
  obtain ⟨rest, more, rfl, hnext⟩ := next?_of_line_eq_append h
  exact ⟨more, by rw [← written_append_of_next? hnext]; simp⟩

/-! ## Lexemes that stand alone -/

/-- The text of the lexeme, taken alone, is read as this lexeme. -/
def Standalone (l : Lexeme) : Prop := next? l.text = some (l.withGap 0, [])

private theorem takeWhile_takeWhile (p : Char → Bool) (cs : List Char) :
    (cs.takeWhile p).takeWhile p = cs.takeWhile p :=
  List.takeWhile_eq_self_iff.2 fun _ hx => List.mem_takeWhile_imp hx

private theorem dropWhile_takeWhile (p : Char → Bool) (cs : List Char) :
    (cs.takeWhile p).dropWhile p = [] :=
  List.dropWhile_eq_nil_iff.2 fun _ hx => List.mem_takeWhile_imp hx

/-- A number that was cut off a text is cut off whole from itself. -/
private theorem splitNumber_splitNumber (cs : List Char) :
    splitNumber (splitNumber cs).1 = ((splitNumber cs).1, []) := by
  -- digits stay digits, and the number has a point if the text had one behind them
  by_cases hpoint : ∃ rest, cs.dropWhile Char.isDigit = '.' :: rest
  · obtain ⟨rest, hrest⟩ := hpoint
    -- the point ends the digits before it in the number as it did in the text
    have hdot : Char.isDigit '.' = false := by decide
    have hdrop : (cs.takeWhile Char.isDigit ++ '.' :: rest.takeWhile Char.isDigit).dropWhile
        Char.isDigit = '.' :: rest.takeWhile Char.isDigit := by
      rw [dropWhile_append_cons hdot, dropWhile_takeWhile, List.nil_append]
    rw [splitNumber_of_point hrest]
    simp only
    rw [splitNumber_of_point hdrop, takeWhile_append_cons hdot, takeWhile_takeWhile,
      takeWhile_takeWhile, dropWhile_takeWhile]
  · rw [splitNumber_of_no_point fun rest h => hpoint ⟨rest, h⟩]
    simp only
    rw [splitNumber_of_no_point (by simp [dropWhile_takeWhile]), takeWhile_takeWhile,
      dropWhile_takeWhile]

/-- A name that was cut off a text is cut off whole from itself. -/
private theorem splitName_splitName (cs : List Char) :
    splitName (splitName cs).1 = ((splitName cs).1, []) := by
  simp only [splitName, takeWhile_takeWhile, dropWhile_takeWhile]

/-- Reading the text of a lexeme from its first character on gives the lexeme. -/
private theorem startingAt_text {gap : Nat} {c : Char} {cs more : List Char}
    (h : (startingAt gap c cs).1.text = c :: more) :
    startingAt 0 c more = ((startingAt gap c cs).1.withGap 0, []) := by
  unfold startingAt at h ⊢
  -- a symbol, a digit, a letter, or any other character
  cases hs : Token.ofSymbol? c with
  | some t =>
    simp only [hs, List.cons.injEq, true_and] at h ⊢
    subst h
    rfl
  | none =>
    simp only [hs] at h ⊢
    split at h
    · next hd =>
      simp only [if_pos hd] at h ⊢
      rw [← h, splitNumber_splitNumber]
      rfl
    · next hd =>
      rw [if_neg hd, if_neg hd]
      split at h
      · next ha =>
        simp only [if_pos ha] at h ⊢
        rw [← h, splitName_splitName]
        rfl
      · next ha =>
        simp only [if_neg ha, List.cons.injEq, true_and] at h ⊢
        subst h
        rfl

/-- A lexeme starts with the character at which it was found. -/
theorem exists_text_startingAt (gap : Nat) (c : Char) (cs : List Char) :
    ∃ more, (startingAt gap c cs).1.text = c :: more := by
  have hlen := length_startingAt_snd_le gap c cs
  have happend := text_append_startingAt gap c cs
  cases htext : (startingAt gap c cs).1.text with
  | nil =>
    rw [htext, List.nil_append] at happend
    rw [happend, List.length_cons] at hlen
    omega
  | cons a more =>
    rw [htext, List.cons_append] at happend
    exact ⟨more, by rw [(List.cons.inj happend).1]⟩

/-- The first lexeme of a text stands alone. -/
theorem standalone_of_next? {cs rest : List Char} {l : Lexeme} (h : next? cs = some (l, rest)) :
    l.Standalone := by
  obtain ⟨c, cs', hc, -, hs⟩ := next?_eq_some h
  obtain ⟨more, hmore⟩ := exists_text_startingAt l.gap c cs'
  have htext := startingAt_text hmore
  rw [hs] at hmore htext
  rw [Standalone, next?, hmore, nextFrom?_cons hc, htext]

/-- Every lexeme of a line stands alone. -/
theorem standalone_of_mem_line {cs : List Char} {l : Lexeme} (hl : l ∈ line cs) :
    l.Standalone := by
  induction cs using line.induct with
  | case1 cs hnone => simp [line_of_none hnone] at hl
  | case2 cs l' rest hnext ht =>
    rw [line_of_some hnext, if_pos ht, List.mem_singleton] at hl
    exact hl ▸ standalone_of_next? hnext
  | case3 cs l' rest hnext ht ih =>
    rw [line_of_some hnext, if_neg ht] at hl
    rcases List.mem_cons.1 hl with rfl | hl
    · exact standalone_of_next? hnext
    · exact ih hl

/-- The spaces in front of a lexeme do not matter to it. -/
theorem startingAt_withGap (gap gap' : Nat) (c : Char) (cs : List Char) :
    startingAt gap' c cs = ((startingAt gap c cs).1.withGap gap', (startingAt gap c cs).2) := by
  unfold startingAt
  split
  · rfl
  · split
    · rfl
    · split <;> rfl

/-- A lexeme that stands alone has a character. -/
theorem Standalone.text_ne_nil {l : Lexeme} (h : l.Standalone) : l.text ≠ [] := by
  intro hnil
  rw [Standalone, hnil] at h
  cases h

/-- A lexeme that stands alone is read back from its text, with any spaces before it. -/
private theorem next?_written {l : Lexeme} (h : l.Standalone) : next? l.written = some (l, []) := by
  -- the spaces are counted, and then the text is read as it is alone
  obtain ⟨c, cs, hc, htext, hs⟩ := next?_eq_some h
  rw [show (l.withGap 0).gap = 0 from rfl, List.replicate_zero, List.nil_append] at htext
  rw [show (l.withGap 0).gap = 0 from rfl] at hs
  rw [next?, written, nextFrom?_replicate_append, htext, nextFrom?_cons hc, Nat.zero_add,
    startingAt_withGap 0 l.gap, hs]
  rfl

/-- Lexemes written out one behind the other, with a space before each of them, are read back. -/
theorem line_flatMap_written {ls : List Lexeme}
    (h : ∀ l ∈ ls, l.Standalone ∧ 0 < l.gap ∧ l.token ≠ .endOfLine) :
    line (ls.flatMap written) = ls := by
  -- each lexeme is read up to the space in front of the next one
  induction ls with
  | nil => exact line_of_none rfl
  | cons l ls ih =>
    obtain ⟨hl, -, ht⟩ := h l List.mem_cons_self
    have hls := fun l' hl' => h l' (List.mem_cons_of_mem l hl')
    have hnext : next? (l.written ++ ls.flatMap written) = some (l, ls.flatMap written) := by
      cases ls with
      | nil => rw [List.flatMap_nil, List.append_nil]; exact next?_written hl
      | cons l' ls =>
        -- the space before the next lexeme ends this one
        obtain ⟨gap, hgap⟩ := Nat.exists_eq_add_one.2 (hls l' List.mem_cons_self).2.1
        have hspace : (l' :: ls).flatMap written =
            ' ' :: (List.replicate gap ' ' ++ l'.text ++ ls.flatMap written) := by
          rw [List.flatMap_cons, written, hgap, List.replicate_succ]
          rfl
        rw [hspace]
        exact nextFrom?_append isStop_space (next?_written hl) _
    rw [List.flatMap_cons, line_of_some hnext, if_neg ht, ih hls]

/-- Only the end of a line holds the character that ends a line. -/
theorem newline_not_mem_text {l : Lexeme} (h : l.Standalone) (ht : l.token ≠ .endOfLine) :
    '\n' ∉ l.text :=
  fun hmem => List.not_mem_nil (newline_mem_of_next? h ht hmem)

/-- Lexemes other than the end of line are written without one. -/
theorem newline_not_mem_flatMap_written {ls : List Lexeme} (h : ∀ l ∈ ls, l.Standalone)
    (ht : ∀ l ∈ ls, l.token ≠ .endOfLine) : '\n' ∉ ls.flatMap written := by
  intro hmem
  obtain ⟨l, hl, hwritten⟩ := List.mem_flatMap.1 hmem
  rcases List.mem_append.1 hwritten with hgap | htext
  · exact absurd (List.eq_of_mem_replicate hgap) (by decide)
  · exact newline_not_mem_text (h l hl) (ht l hl) htext

/-- The length of lexemes that are written out. -/
theorem length_flatMap_written (ls : List Lexeme) :
    (ls.flatMap written).length = totalSize ls := by
  rw [List.length_flatMap, totalSize]
  exact congrArg List.sum (List.map_congr_left fun l _ => l.length_written)

end Lexeme

/-- The tokens of a line in the order in which they are read, its end left out. -/
def lineTokens (line : List Char) : List Token :=
  ((Lexeme.line (line ++ ['\n'])).map Lexeme.token).dropLast

/-- The tokens of the first line of a buffer are those of the line, and then its end. -/
theorem map_token_line_append_newline {line : List Char} (h : '\n' ∉ line) (more : List Char) :
    (Lexeme.line (line ++ '\n' :: more)).map Lexeme.token = lineTokens line ++ [.endOfLine] := by
  obtain ⟨gap, hline, -⟩ := Lexeme.exists_line_append_newline line h
  rw [lineTokens, hline, hline]
  simp

/-- The tokens of a line are those of its lexemes. -/
theorem lineTokens_eq {line : List Char} (h : '\n' ∉ line) :
    lineTokens line = (Lexeme.line line).map Lexeme.token := by
  obtain ⟨gap, hline, -⟩ := Lexeme.exists_line_append_newline line h
  rw [lineTokens, hline]
  simp

/-- The end of the line is none of its tokens. -/
theorem endOfLine_not_mem_lineTokens {line : List Char} (h : '\n' ∉ line) :
    .endOfLine ∉ lineTokens line := by
  rw [lineTokens_eq h, List.mem_map]
  rintro ⟨l, hl, ht⟩
  exact Lexeme.token_ne_endOfLine_of_mem_line h hl ht

end DeskCalc
