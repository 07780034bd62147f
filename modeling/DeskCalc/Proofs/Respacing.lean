import DeskCalc.Proofs.Dialogue
import DeskCalc.Proofs.LongestMatch
import Mathlib.Data.List.Chain

/-!
# Lines with other spaces

The spaces of a line separate its lexemes and mean nothing else.  The texts of the lexemes, written
with any spaces between them, make up a line with the same lexemes, as long as there is a space
wherever a number or name would otherwise go on.  Where there is none, the line is cut differently.

## Key results

- `Lexeme.munch_append_iff`: a lexeme ends in front of the characters that do not extend it
- `Lexeme.line_spread`: texts that are kept apart are read back
- `Lexeme.isChain_of_map_text_line`: texts that are not kept apart are not
- `Calculator.Awaits.evaluate_congr`: lines with the same tokens are answered alike
- `respaced_line_reads_alike`: all of it, for every line
-/

namespace DeskCalc

namespace Lexeme

/-! ## Characters that extend a lexeme -/

/-- The characters with which a lexeme would go on: a digit, or the first point, behind a number; a
    letter or digit behind a name. -/
def Extends (l : Lexeme) (c : Char) : Prop :=
  match l.token with
  | .number _ => c.isDigit = true ∨ c = '.' ∧ '.' ∉ l.text
  | .name _ => Text.isAlphabetic c = true ∨ c.isDigit = true
  | _ => False

/-- No lexeme goes on with a space. -/
private theorem not_extends_space (l : Lexeme) : ¬ l.Extends ' ' := by
  have hstop := isStop_space
  unfold Extends
  split
  · rintro (hdigit | ⟨hpoint, -⟩)
    · rw [hstop.isDigit_eq_false] at hdigit
      cases hdigit
    · exact hstop.2 hpoint
  · decide
  · exact id

/-- A run ends where its condition does. -/
private theorem span_append {p : Char → Bool} {body rest : List Char}
    (hbody : ∀ c ∈ body, p c = true) (hrest : ∀ c ∈ rest.head?, p c = false) :
    (body ++ rest).takeWhile p = body ∧ (body ++ rest).dropWhile p = rest := by
  rw [List.takeWhile_append_of_pos hbody, List.dropWhile_append_of_pos hbody]
  cases rest with
  | nil => simp
  | cons c rest => simp [hrest c rfl]

/-- A number ends in front of what does not extend it. -/
theorem splitNumber_append_of_ends {text rest : List Char} (htext : IsNumberText text)
    (hrest : ∀ c ∈ rest.head?, ¬ (c.isDigit = true ∨ c = '.' ∧ '.' ∉ text)) :
    splitNumber (text ++ rest) = (text, rest) := by
  have hdigit : ∀ c ∈ rest.head?, c.isDigit = false := by
    intro c hc
    have hnot := hrest c hc
    rw [not_or, Bool.not_eq_true] at hnot
    exact hnot.1
  -- ⟨fraction | without a point, and with one
  obtain ⟨whole, tail, rfl, -, hwhole, rfl | ⟨fraction, rfl, hfraction⟩⟩ := htext
  · rw [List.append_nil] at hrest ⊢
    obtain ⟨htake, hdrop⟩ := span_append hwhole hdigit
    have hpoint : ∀ more, (whole ++ rest).dropWhile Char.isDigit ≠ '.' :: more := by
      intro more hmore
      rw [hdrop] at hmore
      -- the digits hold no point, so this one would extend them
      have hnone : '.' ∉ whole := fun hmem => absurd (hwhole '.' hmem) (by decide)
      exact hrest '.' (by rw [hmore]; rfl) (.inr ⟨rfl, hnone⟩)
    rw [splitNumber_of_no_point hpoint, htake, hdrop]
  · have hpoint : ∀ c ∈ ('.' :: (fraction ++ rest)).head?, c.isDigit = false := by
      intro c hc
      obtain rfl := Option.mem_some.1 hc
      decide
    obtain ⟨htake, hdrop⟩ := span_append hwhole hpoint
    obtain ⟨htake', hdrop'⟩ := span_append hfraction hdigit
    rw [List.append_assoc, List.cons_append, splitNumber_of_point hdrop, htake, htake', hdrop']

/-- A name ends in front of what does not extend it. -/
private theorem splitName_append_of_ends {text rest : List Char} (htext : IsNameText text)
    (hrest : ∀ c ∈ rest.head?, ¬ (Text.isAlphabetic c = true ∨ c.isDigit = true)) :
    splitName (text ++ rest) = (text, rest) := by
  have hbody : ∀ c ∈ text, isNameChar c = true := by
    obtain ⟨first, more, rfl, hfirst, hmore⟩ := htext
    intro c hc
    rw [isNameChar, Bool.or_eq_true]
    rcases List.mem_cons.1 hc with rfl | hc
    · exact .inl hfirst
    · exact hmore c hc
  have hstop : ∀ c ∈ rest.head?, isNameChar c = false := by
    intro c hc
    have hnot := hrest c hc
    rwa [← Bool.or_eq_true, Bool.not_eq_true] at hnot
  obtain ⟨htake, hdrop⟩ := span_append hbody hstop
  rw [splitName, htake, hdrop]

/-- A number with a character behind it that extends it is a number. -/
private theorem IsNumberText.concat {text : List Char} (h : IsNumberText text) {c : Char}
    (hc : c.isDigit = true ∨ c = '.' ∧ '.' ∉ text) : IsNumberText (text ++ [c]) := by
  obtain ⟨whole, tail, rfl, hne, hwhole, htail⟩ := h
  have hdigits : ∀ {ds : List Char}, (∀ d ∈ ds, d.isDigit = true) → c.isDigit = true →
      ∀ d ∈ ds ++ [c], d.isDigit = true := by
    intro ds hds hc d hd
    rcases List.mem_append.1 hd with hd | hd
    · exact hds d hd
    · rwa [List.mem_singleton.1 hd]
  -- without a point, it may be a digit or the point; with one, it is a digit
  rcases htail with rfl | ⟨fraction, rfl, hfraction⟩
  · rw [List.append_nil]
    rcases hc with hc | ⟨rfl, -⟩
    · exact ⟨whole ++ [c], [], by simp, by simp, hdigits hwhole hc, .inl rfl⟩
    · exact ⟨whole, ['.'], rfl, hne, hwhole, .inr ⟨[], rfl, by simp⟩⟩
  · rcases hc with hc | ⟨-, hnone⟩
    · exact ⟨whole, '.' :: (fraction ++ [c]), by simp, hne, hwhole,
        .inr ⟨fraction ++ [c], rfl, hdigits hfraction hc⟩⟩
    · simp at hnone

/-- A name with a letter or digit behind it is a name. -/
private theorem IsNameText.concat {text : List Char} (h : IsNameText text) {c : Char}
    (hc : Text.isAlphabetic c = true ∨ c.isDigit = true) : IsNameText (text ++ [c]) := by
  obtain ⟨first, more, rfl, hfirst, hmore⟩ := h
  refine ⟨first, more ++ [c], rfl, hfirst, ?_⟩
  intro d hd
  rcases List.mem_append.1 hd with hd | hd
  · exact hmore d hd
  · rwa [List.mem_singleton.1 hd]

/-- A longest text of a kind is not followed by a character with which it is still of the kind. -/
private theorem Longest.not_concat {Kind : List Char → Prop} {text rest : List Char}
    (h : Longest Kind (text ++ rest) text) {c : Char} (hc : c ∈ rest.head?) :
    ¬ Kind (text ++ [c]) := by
  intro hkind
  cases rest with
  | nil => cases hc
  | cons d rest =>
    obtain rfl := Option.mem_some.1 hc
    -- the longer text also starts the whole, against the choice of the longest one
    have hstart : text ++ [d] <+: text ++ d :: rest := ⟨rest, by simp⟩
    have hle := h.length_le _ hstart hkind
    rw [List.length_append, List.length_singleton] at hle
    omega

/-- A character that is a token of its own is neither a number nor a name. -/
private theorem ofSymbol?_getD_not_operand (c : Char) :
    (∀ x, (Token.ofSymbol? c).getD (.invalid c) ≠ .number x) ∧
      ∀ n, (Token.ofSymbol? c).getD (.invalid c) ≠ .name n := by
  unfold Token.ofSymbol?
  split <;> exact ⟨nofun, nofun⟩

/-- A number that is cut off is the longest one. -/
private theorem Munch.longest_number {cs text : List Char} {t : Token} (h : Munch cs t text)
    {x : Float} (ht : t = .number x) : Longest IsNumberText cs text := by
  cases h with
  | number _ hlongest => exact hlongest
  | name _ _ => cases ht
  | @other c _ _ _ _ => exact absurd ht ((ofSymbol?_getD_not_operand c).1 x)

/-- A name that is cut off is the longest one. -/
private theorem Munch.longest_name {cs text : List Char} {t : Token} (h : Munch cs t text)
    {n : String} (ht : t = .name n) : Longest IsNameText cs text := by
  cases h with
  | number _ _ => cases ht
  | name _ hlongest => exact hlongest
  | @other c _ _ _ _ => exact absurd ht ((ofSymbol?_getD_not_operand c).2 n)

/-- A lexeme that stands alone is cut off its own text. -/
private theorem Standalone.munch {l : Lexeme} (h : l.Standalone) : Munch l.text l.token l.text := by
  obtain ⟨cs', htext, hmunch, -⟩ := munch_of_next? h
  have hgap : (l.withGap 0).gap = 0 := rfl
  rw [hgap, List.replicate_zero, List.nil_append] at htext
  rw [← htext] at hmunch
  exact hmunch

/-- A lexeme ends in front of what does not extend it, and there only. -/
theorem munch_append_iff {l : Lexeme} (h : l.Standalone) (rest : List Char) :
    Munch (l.text ++ rest) l.token l.text ↔ ∀ c ∈ rest.head?, ¬ l.Extends c := by
  obtain ⟨gap, text, token⟩ := l
  have hmunch := h.munch
  dsimp only at hmunch ⊢
  cases hmunch with
  | @number c cs _ hc hlongest =>
    show _ ↔ ∀ d ∈ rest.head?, ¬ (d.isDigit = true ∨ d = '.' ∧ '.' ∉ c :: cs)
    constructor
    · intro hmore d hd hextends
      exact (hmore.longest_number rfl).not_concat hd (hlongest.kind.concat hextends)
    · intro hends
      have hsplit := longest_splitNumber hc (cs ++ rest)
      rw [← List.cons_append, splitNumber_append_of_ends hlongest.kind hends] at hsplit
      exact .number hc hsplit
  | @name c cs _ hc hlongest =>
    show _ ↔ ∀ d ∈ rest.head?, ¬ (Text.isAlphabetic d = true ∨ d.isDigit = true)
    constructor
    · intro hmore d hd hextends
      exact (hmore.longest_name rfl).not_concat hd (hlongest.kind.concat hextends)
    · intro hends
      have hsplit := longest_splitName hc (cs ++ rest)
      rw [← List.cons_append, splitName_append_of_ends hlongest.kind hends] at hsplit
      exact .name hc hsplit
  | @other c cs hspace hdigit hletter =>
    -- a token of one character ends whatever comes next
    have hnone : ∀ d, ¬ Extends ⟨gap, [c], (Token.ofSymbol? c).getD (.invalid c)⟩ d := by
      intro d
      unfold Token.ofSymbol?
      split <;> exact id
    exact iff_of_true (.other hspace hdigit hletter) fun d _ => hnone d

/-! ## Lexemes written with other spaces -/

/-- Whatever comes behind a lexeme, the lexeme that is read has the same spaces, and it is the one
    that the grammar cuts off. -/
private theorem exists_next?_written_append {l : Lexeme} (h : l.Standalone) (rest : List Char) :
    ∃ m rest', next? (l.written ++ rest) = some (m, rest') ∧ m.gap = l.gap ∧
      Munch (l.text ++ rest) m.token m.text := by
  obtain ⟨c, cs, hc, htext, -⟩ := next?_eq_some h
  have hgap : (l.withGap 0).gap = 0 := rfl
  rw [hgap, List.replicate_zero, List.nil_append] at htext
  -- the spaces are read first, and then what starts at the first character of the text
  refine ⟨(startingAt l.gap c (cs ++ rest)).1, (startingAt l.gap c (cs ++ rest)).2, ?_,
    gap_startingAt l.gap c (cs ++ rest), ?_⟩
  · rw [next?, written, List.append_assoc, nextFrom?_replicate_append, htext, List.cons_append,
      nextFrom?_cons hc, Nat.zero_add]
  · rw [htext]
    exact munch_startingAt hc l.gap (cs ++ rest)

/-- Lexemes that stand alone are equal if their texts and spaces are. -/
private theorem Standalone.eq_of_text {l l' : Lexeme} (h : l.Standalone) (h' : l'.Standalone)
    (htext : l.text = l'.text) (hgap : l.gap = l'.gap) : l = l' := by
  obtain ⟨gap, text, token⟩ := l
  obtain ⟨gap', text', token'⟩ := l'
  simp only at htext hgap
  subst htext hgap
  have heq : some (Lexeme.mk 0 text token, ([] : List Char)) = some (Lexeme.mk 0 text token', []) :=
    h.symm.trans h'
  cases heq
  rfl

/-- If the text that is read is that of the lexeme, then so is everything else. -/
private theorem next?_written_append_of_text {l m : Lexeme} {rest rest' : List Char}
    (h : l.Standalone)
    (hnext : next? (l.written ++ rest) = some (m, rest')) (htext : m.text = l.text) :
    m = l ∧ rest' = rest := by
  obtain ⟨m', rest'', hnext', hgap, -⟩ := exists_next?_written_append h rest
  rw [hnext, Option.some.injEq, Prod.mk.injEq] at hnext'
  obtain ⟨rfl, rfl⟩ := hnext'
  obtain rfl := (standalone_of_next? hnext).eq_of_text h htext hgap
  exact ⟨rfl, List.append_cancel_left (written_append_of_next? hnext)⟩

/-- A lexeme is read from its text if nothing behind it extends it, and then only. -/
private theorem next?_written_append_iff {l : Lexeme} (h : l.Standalone) (rest : List Char) :
    next? (l.written ++ rest) = some (l, rest) ↔ ∀ c ∈ rest.head?, ¬ l.Extends c := by
  obtain ⟨m, rest', hnext, -, hmunch⟩ := exists_next?_written_append h rest
  rw [← munch_append_iff h rest]
  constructor
  · intro heq
    rw [hnext, Option.some.injEq, Prod.mk.injEq] at heq
    rwa [heq.1] at hmunch
  · intro hcut
    obtain ⟨rfl, rfl⟩ := next?_written_append_of_text h hnext (hmunch.unique hcut).2
    exact hnext

/-- There is a space between two lexemes, or the second does not go on with the first. -/
def Apart (l l' : Lexeme) : Prop := 0 < l'.gap ∨ ∀ c ∈ l'.text.head?, ¬ l.Extends c

/-- Texts written one behind the other, each behind as many spaces as `gaps` says, and `last` spaces
    at the end. -/
def spread : List Nat → List (List Char) → Nat → List Char
  | gap :: gaps, text :: texts, last => List.replicate gap ' ' ++ text ++ spread gaps texts last
  | _, _, last => List.replicate last ' '

/-- The lexemes with other spaces before them. -/
def regap (gaps : List Nat) (ls : List Lexeme) : List Lexeme := List.zipWith withGap gaps ls

/-- What does not depend on the spaces stays the same. -/
private theorem map_regap {α : Type} {f : Lexeme → α} (hf : ∀ gap l, f (l.withGap gap) = f l)
    {gaps : List Nat} {ls : List Lexeme} (h : gaps.length = ls.length) :
    (regap gaps ls).map f = ls.map f := by
  induction gaps generalizing ls with
  | nil =>
    obtain rfl := List.length_eq_zero_iff.1 h.symm
    rfl
  | cons gap gaps ih =>
    cases ls with
    | nil => cases h
    | cons l ls =>
      show f (l.withGap gap) :: (regap gaps ls).map f = f l :: ls.map f
      rw [hf, ih (Nat.succ.inj h)]

/-- Lexemes with other spaces are those lexemes, each with one of the gaps. -/
private theorem mem_regap {gaps : List Nat} {ls : List Lexeme} {l : Lexeme}
    (h : l ∈ regap gaps ls) :
    ∃ l' ∈ ls, ∃ gap ∈ gaps, l = l'.withGap gap := by
  obtain ⟨i, hi, rfl⟩ := List.mem_iff_getElem.1 h
  rw [regap, List.length_zipWith, Nat.lt_min] at hi
  exact ⟨_, List.getElem_mem hi.2, _, List.getElem_mem hi.1, List.getElem_zipWith⟩

/-- Spreading the texts of lexemes writes the lexemes with these spaces. -/
private theorem spread_eq {gaps : List Nat} {ls : List Lexeme} (h : gaps.length = ls.length)
    (last : Nat) :
    spread gaps (ls.map text) last =
      (regap gaps ls).flatMap written ++ List.replicate last ' ' := by
  induction gaps generalizing ls with
  | nil =>
    obtain rfl := List.length_eq_zero_iff.1 h.symm
    rfl
  | cons gap gaps ih =>
    cases ls with
    | nil => cases h
    | cons l ls =>
      show List.replicate gap ' ' ++ l.text ++ spread gaps (ls.map text) last =
        ((l.withGap gap).written ++ (regap gaps ls).flatMap written) ++ List.replicate last ' '
      rw [ih (Nat.succ.inj h), ← List.append_assoc]
      rfl

/-- A lexeme with its spaces starts with a space, or without spaces with its text. -/
private theorem head?_written_append {l : Lexeme} (hne : l.text ≠ []) (more : List Char)
    {c : Char} :
    c ∈ (l.written ++ more).head? ↔ (0 < l.gap ∧ c = ' ') ∨ (l.gap = 0 ∧ c ∈ l.text.head?) := by
  obtain ⟨a, text, htext⟩ := List.exists_cons_of_ne_nil hne
  -- without spaces the text comes first
  cases hgap : l.gap with
  | zero => simp [written, hgap, htext]
  | succ gap => simp [written, hgap, List.replicate_succ, eq_comm]

/-- Lexemes that are kept apart from one another are those of the text that they make up. -/
theorem line_spread {ls : List Lexeme} (h : ∀ l ∈ ls, l.Standalone ∧ l.token ≠ .endOfLine)
    (hapart : ls.IsChain Apart) (last : Nat) :
    line (ls.flatMap written ++ List.replicate last ' ') = ls := by
  induction ls with
  | nil =>
    apply line_of_none
    rw [List.flatMap_nil, List.nil_append, next?, nextFrom?_eq_none_iff, List.length_replicate]
  | cons l ls ih =>
    obtain ⟨hl, ht⟩ := h l List.mem_cons_self
    have hls := fun l' hl' => h l' (List.mem_cons_of_mem l hl')
    -- what stands behind the lexeme is a space, or a character that does not extend it
    have hends : ∀ c ∈ (ls.flatMap written ++ List.replicate last ' ').head?, ¬ l.Extends c := by
      intro c hc hextends
      have hspace : c ≠ ' ' := fun heq => not_extends_space l (heq ▸ hextends)
      cases ls with
      | nil => exact hspace (List.eq_of_mem_replicate (List.mem_of_mem_head? hc))
      | cons l' ls =>
        rw [List.flatMap_cons, List.append_assoc,
          head?_written_append (hls l' List.mem_cons_self).1.text_ne_nil] at hc
        rcases hc with ⟨-, heq⟩ | ⟨hgap, hc⟩
        · exact hspace heq
        · rcases (List.isChain_cons_cons.1 hapart).1 with hpos | hfirst
          · omega
          · exact hfirst c hc hextends
    rw [List.flatMap_cons, List.append_assoc,
      line_of_some ((next?_written_append_iff hl _).2 hends), if_neg ht, ih hls hapart.of_cons]

/-- If the texts are those that are written, no lexeme went on with the one behind it. -/
theorem isChain_of_map_text_line {ls : List Lexeme}
    (h : ∀ l ∈ ls, l.Standalone ∧ l.token ≠ .endOfLine) (last : Nat)
    (hline : (line (ls.flatMap written ++ List.replicate last ' ')).map text = ls.map text) :
    ls.IsChain Apart := by
  induction ls with
  | nil => exact .nil
  | cons l ls ih =>
    have hl := (h l List.mem_cons_self).1
    have hls := fun l' hl' => h l' (List.mem_cons_of_mem l hl')
    cases ls with
    | nil => exact .singleton l
    | cons l' ls =>
      rw [List.flatMap_cons, List.append_assoc] at hline
      generalize hrest : (l' :: ls).flatMap written ++ List.replicate last ' ' = rest at hline ih
      obtain ⟨m, rest', hnext, -⟩ := exists_next?_written_append hl rest
      rw [line_of_some hnext] at hline
      split at hline
      · -- an end of line would be the only lexeme
        simp at hline
      · obtain ⟨htext, hlater⟩ := List.cons.inj hline
        obtain ⟨rfl, rfl⟩ := next?_written_append_of_text hl hnext htext
        refine List.isChain_cons_cons.2 ⟨?_, ih hls hlater⟩
        have hends := (next?_written_append_iff hl _).1 hnext
        have hne := (hls l' List.mem_cons_self).1.text_ne_nil
        rw [← hrest, List.flatMap_cons, List.append_assoc] at hends
        rcases Nat.eq_zero_or_pos l'.gap with hgap | hpos
        · exact .inr fun c hc => hends c ((head?_written_append hne _).2 (.inr ⟨hgap, hc⟩))
        · exact .inl hpos

/-- With a space in front of every lexeme but the first, lexemes are kept apart. -/
private theorem isChain_of_gap_pos {l : Lexeme} {ls : List Lexeme} (h : ∀ m ∈ ls, 0 < m.gap) :
    (l :: ls).IsChain Apart := by
  induction ls generalizing l with
  | nil => exact .singleton l
  | cons m ls ih =>
    obtain ⟨hm, hls⟩ := List.forall_mem_cons.1 h
    exact List.isChain_cons_cons.2 ⟨.inl hm, ih hls⟩

/-- With a space in front of every lexeme but the first, lexemes are kept apart, whatever their
    spaces were. -/
private theorem isChain_regap {gaps : List Nat} {ls : List Lexeme}
    (hgaps : ∀ gap ∈ gaps.tail, 0 < gap) :
    (regap gaps ls).IsChain Apart := by
  cases gaps with
  | nil => exact .nil
  | cons gap gaps =>
    cases ls with
    | nil => exact .nil
    | cons l ls =>
      apply isChain_of_gap_pos
      intro m hm
      obtain ⟨l', -, gap', hgap', rfl⟩ := mem_regap hm
      exact hgaps gap' hgap'

/-- Joining texts with single spaces puts one space before each of them but the first. -/
private theorem intercalate_cons_eq_spread (text : List Char) (texts : List (List Char)) :
    [' '].intercalate (text :: texts) =
      spread (0 :: List.replicate texts.length 1) (text :: texts) 0 := by
  show _ = text ++ spread (List.replicate texts.length 1) texts 0
  induction texts generalizing text with
  | nil =>
    rw [List.intercalate_singleton]
    exact (List.append_nil text).symm
  | cons text' texts ih =>
    rw [List.intercalate_cons_cons, ih text']
    simp [List.replicate_succ, spread]

end Lexeme

open Lexeme (spread regap Apart)

/-! ## Lines that are answered alike -/

/-- Why there is no value, without the line and the place in it. -/
def EvalError.cause : EvalError → InputError ⊕ Rejection
  | .rejected diagnostic => .inr diagnostic.rejection
  | .input error => .inl error

/-- The cause for which a line is refused comes from its tokens. -/
private theorem cause_segmentAnswer (t : SymbolTable) (detailed : Bool) (line segment : List Char)
    (offset : Nat) :
    (segmentAnswer detailed line offset t segment).1.result.mapError EvalError.cause =
      (evaluateLine t detailed (lineTokens segment ++ [.endOfLine])).result.mapError Sum.inr := by
  unfold segmentAnswer
  dsimp only
  cases (evaluateLine t detailed (lineTokens segment ++ [.endOfLine])).result <;> rfl

/-- Lines with the same tokens get the same values, or are refused for the same reason, and leave
    the same variables. -/
theorem Calculator.Awaits.evaluate_congr {σ τ : Type} [LineSource σ] [LineSource τ]
    {c : Calculator σ} {c' : Calculator τ} {line line' : List Char} (h : c.Awaits line)
    (h' : c'.Awaits line') (hline : '\n' ∉ line) (hline' : '\n' ∉ line')
    (htokens : lineTokens line' = lineTokens line) (hsymbols : c'.symbols = c.symbols)
    (detailed : Bool) :
    (c'.evaluate detailed).1.result.mapError EvalError.cause =
        (c.evaluate detailed).1.result.mapError EvalError.cause ∧
      (c'.evaluate detailed).1.steps = (c.evaluate detailed).1.steps ∧
      (c'.evaluate detailed).2.symbols = (c.evaluate detailed).2.symbols := by
  have hanswer := (h.evaluate_settles hline detailed).1
  have hanswer' := (h'.evaluate_settles hline' detailed).1
  have hreply := congrArg Prod.fst hanswer
  have hreply' := congrArg Prod.fst hanswer'
  have hafter := congrArg Prod.snd hanswer
  have hafter' := congrArg Prod.snd hanswer'
  dsimp only at hreply hreply' hafter hafter'
  rw [hreply, hreply', hafter, hafter', hsymbols, cause_segmentAnswer, cause_segmentAnswer]
  -- the value, the steps and the variables come from the tokens
  unfold segmentAnswer
  rw [htokens]
  exact ⟨rfl, rfl, rfl⟩

/-- A line is read and answered as another one is: it has the same tokens, and whoever evaluates it
    gets the same value, or is refused it for the same reason, with the same variables
    afterwards. -/
structure Alike (line line' : List Char) : Prop where
  newline : '\n' ∉ line'
  tokens : lineTokens line' = lineTokens line
  evaluate : ∀ {σ τ : Type} [LineSource σ] [LineSource τ] (c : Calculator σ) (c' : Calculator τ)
    (detailed : Bool), c.Awaits line → c'.Awaits line' → c'.symbols = c.symbols →
      (c'.evaluate detailed).1.result.mapError EvalError.cause =
          (c.evaluate detailed).1.result.mapError EvalError.cause ∧
        (c'.evaluate detailed).1.steps = (c.evaluate detailed).1.steps ∧
        (c'.evaluate detailed).2.symbols = (c.evaluate detailed).2.symbols

/-- Lines with the same tokens are answered alike. -/
private theorem alike_of_lineTokens {line line' : List Char} (hline : '\n' ∉ line)
    (hline' : '\n' ∉ line') (htokens : lineTokens line' = lineTokens line) : Alike line line' :=
  ⟨hline', htokens, fun _ _ detailed h h' hsymbols =>
    h.evaluate_congr h' hline hline' htokens hsymbols detailed⟩

/-- The texts of the tokens of a line. -/
def textsOf (line : List Char) : List (List Char) := (Lexeme.line line).map Lexeme.text

/-- The lexemes of a line stand alone, with whatever spaces, and none is an end of line. -/
private theorem standalone_regap_line {line : List Char} (hline : '\n' ∉ line) (gaps : List Nat) :
    ∀ l ∈ regap gaps (Lexeme.line line), l.Standalone ∧ l.token ≠ .endOfLine := by
  intro l hl
  obtain ⟨l', hl', gap, -, rfl⟩ := Lexeme.mem_regap hl
  have halone : l'.Standalone := Lexeme.standalone_of_mem_line hl'
  have htoken : l'.token ≠ .endOfLine := Lexeme.token_ne_endOfLine_of_mem_line hline hl'
  exact ⟨halone, htoken⟩

/-- A line whose lexemes are kept apart with other spaces is read and answered alike. -/
private theorem alike_spread {line : List Char} (hline : '\n' ∉ line) {gaps : List Nat}
    (hgaps : gaps.length = (Lexeme.line line).length)
    (hapart : (regap gaps (Lexeme.line line)).IsChain Apart) (last : Nat) :
    Alike line (spread gaps (textsOf line) last) := by
  have hstandalone := standalone_regap_line hline gaps
  have hread := Lexeme.line_spread hstandalone hapart last
  rw [textsOf, Lexeme.spread_eq hgaps]
  have hline' : '\n' ∉ (regap gaps (Lexeme.line line)).flatMap Lexeme.written ++
      List.replicate last ' ' := by
    rw [List.mem_append, not_or]
    refine ⟨Lexeme.newline_not_mem_flatMap_written (fun l hl => (hstandalone l hl).1)
      fun l hl => (hstandalone l hl).2, fun hmem => ?_⟩
    exact absurd (List.eq_of_mem_replicate hmem) (by decide)
  apply alike_of_lineTokens hline hline'
  rw [lineTokens_eq hline', hread, lineTokens_eq hline]
  exact Lexeme.map_regap (fun _ _ => rfl) hgaps

/-- Joined with single spaces, the texts of a line make up a line that is read alike. -/
private theorem alike_intercalate {line : List Char} (hline : '\n' ∉ line) :
    Alike line ([' '].intercalate (textsOf line)) := by
  -- without lexemes nothing is joined
  cases hlexemes : Lexeme.line line with
  | nil =>
    have hgaps : ([] : List Nat).length = (Lexeme.line line).length := by
      rw [hlexemes]
      rfl
    have hnil := alike_spread hline hgaps .nil 0
    rw [textsOf, hlexemes] at hnil ⊢
    exact hnil
  | cons l ls =>
    have hpos : ∀ gap ∈ (0 :: List.replicate (ls.map Lexeme.text).length 1).tail, 0 < gap :=
      fun gap hgap => (List.eq_of_mem_replicate hgap) ▸ Nat.one_pos
    have hgaps : (0 :: List.replicate (ls.map Lexeme.text).length 1).length =
        (Lexeme.line line).length := by
      rw [hlexemes, List.length_cons, List.length_replicate, List.length_map, List.length_cons]
    have hspread := alike_spread hline hgaps (Lexeme.isChain_regap hpos) 0
    rw [textsOf, hlexemes, List.map_cons] at hspread ⊢
    rw [Lexeme.intercalate_cons_eq_spread]
    exact hspread

/-- The texts of a line, joined with single spaces, with one space or more, and with any spaces at
    the ends, make up a line with the same tokens.  So do they if a space is left out where what
    comes next does not extend a number or name; where it does, they are not read back.  All these
    lines get the same value as the line itself, or are refused for the same reason, and leave the
    same variables. -/
theorem respaced_line_reads_alike {line : List Char} (hline : '\n' ∉ line) :
    Alike line ([' '].intercalate (textsOf line)) ∧
    ∀ gaps : List Nat, gaps.length = (textsOf line).length → ∀ last,
      ((∀ gap ∈ gaps.tail, 0 < gap) → Alike line (spread gaps (textsOf line) last)) ∧
      ((regap gaps (Lexeme.line line)).IsChain Apart →
        Alike line (spread gaps (textsOf line) last)) ∧
      (textsOf (spread gaps (textsOf line) last) = textsOf line ↔
        (regap gaps (Lexeme.line line)).IsChain Apart) := by
  refine ⟨alike_intercalate hline, ?_⟩
  intro gaps hlength last
  have hgaps : gaps.length = (Lexeme.line line).length := hlength.trans (List.length_map _)
  have hstandalone := standalone_regap_line hline gaps
  have htexts : (regap gaps (Lexeme.line line)).map Lexeme.text = textsOf line :=
    Lexeme.map_regap (fun _ _ => rfl) hgaps
  have hspread : spread gaps (textsOf line) last =
      (regap gaps (Lexeme.line line)).flatMap Lexeme.written ++ List.replicate last ' ' :=
    Lexeme.spread_eq hgaps last
  refine ⟨?_, fun hapart => alike_spread hline hgaps hapart last, ?_, ?_⟩
  · intro hpos
    exact alike_spread hline hgaps (Lexeme.isChain_regap hpos) last
  · intro hread
    -- the texts are read back, so no lexeme went on with the next one
    rw [hspread, textsOf, ← htexts] at hread
    exact Lexeme.isChain_of_map_text_line hstandalone last hread
  · intro hapart
    rw [hspread, textsOf, Lexeme.line_spread hstandalone hapart last, htexts]

/-- The sum `3 4+` reads the same with a space in front of its operator. -/
theorem respaced_sum_reads_alike :
    '\n' ∉ "3 4+".toList ∧ Alike "3 4+".toList ([' '].intercalate (textsOf "3 4+".toList)) := by
  have hline : '\n' ∉ "3 4+".toList := by decide
  exact ⟨hline, (respaced_line_reads_alike hline).1⟩

end DeskCalc
