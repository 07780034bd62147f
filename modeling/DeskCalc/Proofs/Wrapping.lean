import DeskCalc.Proofs.Columns
import Mathlib.Data.List.Chain

/-!
# Wrapped lines

Wrapping cuts the words of a text that are too wide into pieces and then packs all pieces into lines
with one space between neighbours.  The two passes know nothing of each other, and the second one
sees no difference between the pieces of one word and those of two.  It still never puts a space
into a word: a piece is only cut off when the next character does not fit behind it, and then the
next piece, which starts with that character, does not fit either.

## Key results

- `words_eq`: the words of a text are what is left between its blanks
- `isChain_cutFrom`: two neighbouring pieces of a word are together wider than a line
- `pack_eq`: packing texts is packing pieces that know the word they were cut from
- `apart_of_mem_layOut`: no line has two pieces of one word
- `wrap_greedy`: wrapping loses nothing, keeps to the width, and fills each line
- `width_le_of_mem_wrap`: on a screen, a wrapped line fits
-/

namespace DeskCalc.Text

/-! ## Words -/

/-- A character is passed over, is a word of its own, or is put before the word that follows it. -/
private theorem words_cases (c : Char) (cs : List Char) :
    (isBlank c = true ∧ words (c :: cs) = words cs) ∨
    (isBlank c = false ∧ (∀ next ∈ cs.head?, isBlank next = true) ∧
      words (c :: cs) = [c] :: words cs) ∨
    (isBlank c = false ∧ ∃ next rest word more, cs = next :: rest ∧ isBlank next = false ∧
      words cs = word :: more ∧ words (c :: cs) = (c :: word) :: more) := by
  by_cases hc : isBlank c = true
  · exact .inl ⟨hc, if_pos hc⟩
  · have hc' : isBlank c = false := Bool.eq_false_iff.2 hc
    cases cs with
    | nil => exact .inr (.inl ⟨hc', by simp, if_neg hc⟩)
    | cons next rest =>
      have hcons : ∀ word more, words (next :: rest) = word :: more → words (c :: next :: rest) =
          if isBlank next then [c] :: word :: more else (c :: word) :: more :=
        fun word more hwords => by
          refine (if_neg hc).trans ?_
          rw [hwords]
      by_cases hnext : isBlank next = true
      · refine .inr (.inl ⟨hc', by simpa using hnext, ?_⟩)
        cases hwords : words (next :: rest) with
        | nil =>
          refine (if_neg hc).trans ?_
          rw [hwords]
        | cons word more => rw [hcons word more hwords, if_pos hnext]
      · -- a word starts with the next character
        have hword : ∃ word more, words (next :: rest) = word :: more := by
          unfold words
          rw [if_neg hnext]
          split
          · split <;> exact ⟨_, _, rfl⟩
          · exact ⟨_, _, rfl⟩
        obtain ⟨word, more, hword⟩ := hword
        refine .inr (.inr ⟨hc', next, rest, word, more, rfl, Bool.eq_false_iff.2 hnext, hword, ?_⟩)
        rw [hcons word more hword, if_neg hnext]

/-- The words of a text are the pieces between its blanks that are not empty. -/
theorem words_eq (text : List Char) :
    words text = (text.splitOnP isBlank).filter (· ≠ []) := by
  induction text with
  | nil => simp [words]
  | cons c cs ih =>
    rw [List.splitOnP_cons_eq_if_modifyHead]
    -- a blank splits, a character in front of one is a piece, and any other one goes in front of
    -- the first piece
    rcases words_cases c cs with ⟨hc, hwords⟩ | ⟨hc, hnext, hwords⟩ |
      ⟨hc, next, rest, word, more, rfl, hnext, hword, hwords⟩
    · rw [hwords, if_pos hc, ih]
      simp
    · rw [hwords, if_neg (by simp [hc]), ih]
      cases cs with
      | nil => simp
      | cons next rest =>
        rw [List.splitOnP_cons_eq_if_modifyHead, if_pos (hnext next rfl)]
        simp
    · -- the piece before the first blank starts with the next character
      rw [hwords, if_neg (by simp [hc])]
      rw [List.splitOnP_cons_eq_if_modifyHead, if_neg (by simp [hnext])] at ih ⊢
      obtain ⟨first, pieces, hsplit⟩ := List.exists_cons_of_ne_nil
        (List.splitOnP_ne_nil isBlank rest)
      rw [hword, hsplit] at ih
      rw [hsplit]
      simpa using ih

/-- A word is not empty and has no blanks. -/
private theorem mem_words {text word : List Char} (h : word ∈ words text) :
    word ≠ [] ∧ ∀ c ∈ word, c ∈ text ∧ isBlank c = false := by
  induction text generalizing word with
  | nil => cases h
  | cons c cs ih =>
    have hkeep : ∀ w ∈ words cs, w ≠ [] ∧ ∀ a ∈ w, a ∈ c :: cs ∧ isBlank a = false := fun w hw =>
      ⟨(ih hw).1, fun a ha => ⟨List.mem_cons_of_mem _ ((ih hw).2 a ha).1, ((ih hw).2 a ha).2⟩⟩
    -- a word of the rest, the character alone, or the character in front of the first word
    rcases words_cases c cs with ⟨-, hwords⟩ | ⟨hc, -, hwords⟩ |
      ⟨hc, -, -, first, more, -, -, hfirst, hwords⟩
    · exact hkeep word (hwords ▸ h)
    · rcases List.mem_cons.1 (hwords ▸ h) with rfl | h
      · exact ⟨by simp, by simpa using hc⟩
      · exact hkeep word h
    · rcases List.mem_cons.1 (hwords ▸ h) with rfl | h
      · have hrest := (hkeep first (hfirst ▸ List.mem_cons_self)).2
        exact ⟨by simp, List.forall_mem_cons.2 ⟨⟨List.mem_cons_self, hc⟩, hrest⟩⟩
      · exact hkeep word (hfirst ▸ List.mem_cons_of_mem _ h)

/-- The words of a text hold everything but its blanks. -/
private theorem flatten_words (text : List Char) :
    (words text).flatten = text.filter (!isBlank ·) := by
  induction text with
  | nil => rfl
  | cons c cs ih =>
    rcases words_cases c cs with ⟨hc, hwords⟩ | ⟨hc, -, hwords⟩ |
      ⟨hc, -, -, first, more, -, -, hfirst, hwords⟩
    · rw [hwords, ih, List.filter_cons_of_neg (by simp [hc])]
    · rw [hwords, List.flatten_cons, ih, List.filter_cons_of_pos (by simp [hc])]
      rfl
    · rw [hwords, List.filter_cons_of_pos (by simp [hc]), ← ih, hfirst]
      rfl

open DeskCalc.Text.Measure (total total_nil total_cons total_append)

/-! ## Cutting words -/

section Cutting

variable {m : Measure} {limit : Nat}

/-- The first piece starts with what it held before. -/
private theorem exists_cutFrom_eq (m : Measure) (limit : Nat) (piece rest : List Char) :
    ∃ more pieces, cutFrom m limit piece rest = (piece ++ more) :: pieces := by
  induction rest generalizing piece with
  | nil => exact ⟨[], [], by rw [cutFrom, List.append_nil]⟩
  | cons c rest ih =>
    rw [cutFrom]
    -- the piece is finished, or it takes the character and goes on
    split
    · exact ⟨[], _, by rw [List.append_nil]⟩
    · obtain ⟨more, pieces, hcut⟩ := ih (piece ++ [c])
      exact ⟨c :: more, pieces, by rw [hcut, List.append_assoc]; rfl⟩

/-- The pieces of a word are together the word. -/
private theorem flatten_cutFrom (m : Measure) (limit : Nat) (piece rest : List Char) :
    (cutFrom m limit piece rest).flatten = piece ++ rest := by
  induction rest generalizing piece with
  | nil => simp [cutFrom]
  | cons c rest ih =>
    rw [cutFrom]
    split
    · rw [List.flatten_cons, ih]
      rfl
    · rw [ih, List.append_assoc]
      rfl

/-- A word that fits is not cut. -/
private theorem cutFrom_eq_singleton {piece rest : List Char}
    (h : total m.ofChar (piece ++ rest) ≤ limit) :
    cutFrom m limit piece rest = [piece ++ rest] := by
  induction rest generalizing piece with
  | nil => rw [cutFrom, List.append_nil]
  | cons c rest ih =>
    have happend : piece ++ c :: rest = (piece ++ [c]) ++ rest := by simp
    have hfits : ¬ limit < total m.ofChar piece + m.ofChar c := by
      rw [total_append, total_cons] at h
      omega
    rw [cutFrom, if_neg hfits, happend]
    exact ih (happend ▸ h)

/-- No piece of a word is empty. -/
private theorem ne_nil_of_mem_cutFrom {piece rest p : List Char} (hpiece : piece ≠ [])
    (h : p ∈ cutFrom m limit piece rest) : p ≠ [] := by
  induction rest generalizing piece with
  | nil =>
    rw [cutFrom, List.mem_singleton] at h
    exact h ▸ hpiece
  | cons c rest ih =>
    rw [cutFrom] at h
    split at h
    · rcases List.mem_cons.1 h with rfl | h
      · exact hpiece
      · exact ih (by simp) h
    · exact ih (by simp) h

/-- A piece fits if each single character does. -/
private theorem total_le_of_mem_cutFrom {piece rest p : List Char}
    (hpiece : total m.ofChar piece ≤ limit) (hrest : ∀ c ∈ rest, m.ofChar c ≤ limit)
    (h : p ∈ cutFrom m limit piece rest) : total m.ofChar p ≤ limit := by
  induction rest generalizing piece with
  | nil =>
    rw [cutFrom, List.mem_singleton] at h
    exact h ▸ hpiece
  | cons c rest ih =>
    obtain ⟨hc, hrest⟩ := List.forall_mem_cons.1 hrest
    rw [cutFrom] at h
    split at h
    · rcases List.mem_cons.1 h with rfl | h
      · exact hpiece
      · exact ih (by simpa using hc) hrest h
    · next hfits =>
      -- the character still fits, so the longer piece does
      refine ih ?_ hrest h
      rw [total_append]
      simp only [total_cons, total_nil]
      omega

/-- Two neighbouring pieces of a word are together wider than a line: the first character of the
    second one did not fit behind the first one. -/
theorem isChain_cutFrom (m : Measure) (limit : Nat) (piece rest : List Char) :
    (cutFrom m limit piece rest).IsChain
      fun p q => limit < total m.ofChar p + total m.ofChar q := by
  induction rest generalizing piece with
  | nil => exact .singleton _
  | cons c rest ih =>
    rw [cutFrom]
    split
    · next hwide =>
      refine (ih [c]).cons fun q hq => ?_
      obtain ⟨more, pieces, hcut⟩ := exists_cutFrom_eq m limit [c] rest
      rw [hcut, List.head?_cons, Option.mem_some_iff] at hq
      rw [← hq, total_append]
      simp only [total_cons, total_nil]
      omega
    · exact ih _

end Cutting

/-- What cutting makes of a word. -/
structure IsCut (m : Measure) (limit : Nat) (word : List Char) (pieces : List (List Char)) :
    Prop where
  flatten : pieces.flatten = word
  ne_nil : ∀ p ∈ pieces, p ≠ []
  uncut : total m.ofChar word ≤ limit → pieces = [word]
  fits : (∀ c ∈ word, m.ofChar c ≤ limit) → ∀ p ∈ pieces, total m.ofChar p ≤ limit
  full : pieces.IsChain fun p q => limit < total m.ofChar p + total m.ofChar q

/-- `cutWord` cuts a word as it should. -/
private theorem isCut_cutWord (m : Measure) (limit : Nat) {word : List Char} (h : word ≠ []) :
    IsCut m limit word (cutWord m limit word) := by
  obtain ⟨c, rest, rfl⟩ := List.exists_cons_of_ne_nil h
  refine ⟨flatten_cutFrom m limit [c] rest, fun p hp => ne_nil_of_mem_cutFrom (by simp) hp,
    @cutFrom_eq_singleton m limit [c] rest, fun hchars p hp => ?_, isChain_cutFrom m limit [c] rest⟩
  -- the first character starts the first piece
  obtain ⟨hc, hrest⟩ := List.forall_mem_cons.1 hchars
  exact total_le_of_mem_cutFrom (by simpa using hc) hrest hp

/-! ## Packing pieces -/

/-- A piece of a word, and the index of that word in the text. -/
structure Piece where
  word : Nat
  text : List Char
deriving DecidableEq

/-- The text of a line of pieces: one space between neighbours. -/
def lineText (line : List Piece) : List Char := [' '].intercalate (line.map Piece.text)

/-- The pieces of words, of which the first one has the index `i`. -/
def piecesFrom (m : Measure) (limit : Nat) (i : Nat) : List (List Char) → List Piece
  | [] => []
  | w :: ws => (cutWord m limit w).map (Piece.mk i) ++ piecesFrom m limit (i + 1) ws

/-- Packs pieces into lines as `pack` does, and keeps for each piece to which word it belongs. -/
def layOut (m : Measure) (limit : Nat) (line : List Piece) : List Piece → List (List Piece)
  | [] => if line = [] then [] else [line]
  | p :: ps =>
    if line = [] then layOut m limit [p] ps
    else if limit < m.ofText (lineText line) + 1 + m.ofText p.text then
      line :: layOut m limit [p] ps
    else layOut m limit (line ++ [p]) ps

/-- The empty line has no text. -/
@[simp] private theorem lineText_nil : lineText [] = [] := rfl

/-- A line of one piece has its text. -/
@[simp] private theorem lineText_singleton (p : Piece) : lineText [p] = p.text :=
  List.intercalate_singleton

/-- A piece may be put in front of a line, with a space between them. -/
private theorem lineText_cons {line : List Piece} (h : line ≠ []) (p : Piece) :
    lineText (p :: line) = p.text ++ ' ' :: lineText line := by
  obtain ⟨q, rest, rfl⟩ := List.exists_cons_of_ne_nil h
  simp [lineText, List.intercalate_cons_cons]

/-- A piece may be put behind a line, with a space between them. -/
private theorem lineText_append_singleton {line : List Piece} (h : line ≠ []) (p : Piece) :
    lineText (line ++ [p]) = lineText line ++ ' ' :: p.text := by
  induction line with
  | nil => exact absurd rfl h
  | cons q line ih =>
    by_cases hline : line = []
    · subst hline
      simp [lineText, List.intercalate_cons_cons]
    · rw [List.cons_append, lineText_cons (by simp), lineText_cons hline, ih hline,
        List.append_assoc]
      rfl

/-- A line of pieces that are not empty is not empty. -/
private theorem lineText_eq_nil_iff {line : List Piece} (h : ∀ p ∈ line, p.text ≠ []) :
    lineText line = [] ↔ line = [] := by
  cases line with
  | nil => simp
  | cons p line =>
    have hp := h p List.mem_cons_self
    by_cases hline : line = []
    · subst hline
      simpa using hp
    · simp [lineText_cons hline]

/-- Packing the texts of pieces is packing the pieces. -/
theorem pack_eq (m : Measure) (limit : Nat) {line ps : List Piece}
    (h : ∀ p ∈ line ++ ps, p.text ≠ []) :
    pack m limit (lineText line) (ps.map Piece.text) = (layOut m limit line ps).map lineText := by
  induction ps generalizing line with
  | nil =>
    rw [List.append_nil] at h
    simp only [List.map_nil, pack, layOut, List.isEmpty_iff, lineText_eq_nil_iff h]
    split <;> rfl
  | cons p ps ih =>
    have hline : ∀ q ∈ line, q.text ≠ [] := fun q hq => h q (List.mem_append_left _ hq)
    have hrest : ∀ q ∈ [p] ++ ps, q.text ≠ [] := fun q hq => h q (List.mem_append_right _ hq)
    -- the next line starts with `p` alone
    have hnext := ih hrest
    rw [lineText_singleton] at hnext
    simp only [List.map_cons, pack, layOut, List.isEmpty_iff, lineText_eq_nil_iff hline]
    by_cases hempty : line = []
    · rw [if_pos hempty, if_pos hempty]
      exact hnext
    · rw [if_neg hempty, if_neg hempty]
      split
      · rw [List.map_cons, hnext]
      · rw [← lineText_append_singleton hempty]
        exact ih (by simpa using h)

/-- Lines of pieces hold the pieces in their order. -/
private theorem flatten_layOut (m : Measure) (limit : Nat) (line ps : List Piece) :
    (layOut m limit line ps).flatten = line ++ ps := by
  -- by induction on the pieces, whatever the line that is being filled
  induction ps generalizing line with
  | nil =>
    rw [layOut]
    split
    · next h => rw [h]; rfl
    · simp
  | cons p ps ih =>
    rw [layOut]
    split
    · next h => rw [ih, h]; rfl
    · split
      · rw [List.flatten_cons, ih]
        rfl
      · rw [ih, List.append_assoc]
        rfl

/-- No line is without pieces. -/
private theorem nil_not_mem_layOut (m : Measure) (limit : Nat) (line ps : List Piece) :
    [] ∉ layOut m limit line ps := by
  -- a line is closed only if there is a piece in it
  induction ps generalizing line with
  | nil =>
    rw [layOut]
    split
    · simp
    · next h => simpa using Ne.symm h
  | cons p ps ih =>
    rw [layOut]
    split
    · exact ih [p]
    · next h =>
      split
      · rw [List.mem_cons, not_or]
        exact ⟨Ne.symm h, ih [p]⟩
      · exact ih _

/-- The first line starts with what it held before. -/
private theorem head?_layOut (m : Measure) (limit : Nat) {p : Piece} (line ps : List Piece) :
    ∀ l ∈ (layOut m limit (p :: line) ps).head?, l.head? = some p := by
  induction ps generalizing line with
  | nil => simp [layOut]
  | cons q ps ih =>
    rw [layOut, if_neg (List.cons_ne_nil p line)]
    split
    · simp
    · exact ih (line ++ [q])

/-- A line ends only where the next piece does not fit behind it. -/
private theorem isChain_layOut (m : Measure) (limit : Nat) (line ps : List Piece) :
    (layOut m limit line ps).IsChain fun l next =>
      ∀ p ∈ next.head?, limit < m.ofText (lineText l) + 1 + m.ofText p.text := by
  induction ps generalizing line with
  | nil =>
    rw [layOut]
    split
    · exact .nil
    · exact .singleton _
  | cons p ps ih =>
    rw [layOut]
    split
    · exact ih [p]
    · split
      · next hwide =>
        -- the next line starts with `p`, which did not fit behind this one
        refine (ih [p]).cons fun next hnext q hq => ?_
        rw [head?_layOut m limit [] ps next hnext, Option.mem_some_iff] at hq
        exact hq ▸ hwide
      · exact ih _

/-! ## Widths of lines -/

/-- A measure by which texts of these characters and of spaces are as wide as their characters
    together, a space taking one column and any other character at most two. -/
structure Measure.SumsOver (m : Measure) (text : List Char) : Prop where
  space : m.ofChar ' ' = 1
  char_le : ∀ c ∈ text, m.ofChar c ≤ 2
  sum : ∀ cs, (∀ c ∈ cs, c = ' ' ∨ c ∈ text) → m.ofText cs = total m.ofChar cs

/-- On a screen, texts of characters that stand alone are as wide as their characters together. -/
theorem Measure.sumsOver_display {text : List Char}
    (h : ∀ c ∈ text, StandsAlone c ∧ charWidth c ≤ 2) : display.SumsOver text := by
  refine ⟨by decide, fun c hc => (h c hc).2, fun cs hcs => width_eq_total fun c hc => ?_⟩
  rcases hcs c hc with rfl | hmem
  · decide
  · exact (h c hmem).1

/-- A line has the characters of its pieces, and spaces. -/
private theorem mem_lineText {line : List Piece} {c : Char} (h : c ∈ lineText line) :
    c = ' ' ∨ ∃ p ∈ line, c ∈ p.text := by
  induction line with
  | nil => cases h
  | cons p line ih =>
    by_cases hline : line = []
    · subst hline
      rw [lineText_singleton] at h
      exact .inr ⟨p, List.mem_cons_self, h⟩
    · rw [lineText_cons hline, List.mem_append, List.mem_cons] at h
      rcases h with h | h | h
      · exact .inr ⟨p, List.mem_cons_self, h⟩
      · exact .inl h
      · exact (ih h).imp_right fun ⟨q, hq, hc⟩ => ⟨q, List.mem_cons_of_mem _ hq, hc⟩

section Widths

variable {m : Measure} {text : List Char} {limit : Nat} {line ps : List Piece}

/-- A line of pieces of the text is as wide as its characters together. -/
private theorem Measure.SumsOver.lineText (hm : m.SumsOver text)
    (h : ∀ p ∈ line, ∀ c ∈ p.text, c ∈ text) :
    m.ofText (lineText line) = total m.ofChar (Text.lineText line) :=
  hm.sum _ fun _ hc => (mem_lineText hc).imp_right fun ⟨p, hp, hmem⟩ => h p hp _ hmem

/-- A piece of the text is as wide as its characters together. -/
private theorem Measure.SumsOver.piece (hm : m.SumsOver text) {p : Piece}
    (h : ∀ c ∈ p.text, c ∈ text) :
    m.ofText p.text = total m.ofChar p.text :=
  hm.sum _ fun c hc => .inr (h c hc)

/-- A line is as wide as what it held before, a space and its last piece. -/
private theorem Measure.SumsOver.total_lineText (hm : m.SumsOver text) (h : line ≠ []) (p : Piece) :
    total m.ofChar (Text.lineText (line ++ [p])) =
      total m.ofChar (Text.lineText line) + 1 + total m.ofChar p.text := by
  -- the space between them takes its one column
  rw [lineText_append_singleton h, total_append, total_cons, hm.space]
  omega

/-- A line is at least as wide as its last piece. -/
private theorem total_le_total_lineText (ofChar : Char → Nat) (line : List Piece) (p : Piece) :
    total ofChar p.text ≤ total ofChar (lineText (line ++ [p])) := by
  by_cases hline : line = []
  · simp [hline]
  · rw [lineText_append_singleton hline, total_append, total_cons]
    omega

/-- No line is wider than a line can be, unless one of its pieces is, as long as a line is no wider
    than what it held before, a space and its last piece. -/
private theorem ofText_le_of_mem_layOut
    (hjoin : ∀ front p, front ≠ [] → (∀ q ∈ front ++ [p], q ∈ line ++ ps) →
      m.ofText (lineText (front ++ [p])) ≤ m.ofText (lineText front) + 1 + m.ofText p.text)
    (hfits : ∀ p ∈ ps, m.ofText p.text ≤ limit) (hline : m.ofText (lineText line) ≤ limit) :
    ∀ l ∈ layOut m limit line ps, m.ofText (lineText l) ≤ limit := by
  induction ps generalizing line with
  | nil =>
    rw [layOut]
    split
    · simp
    · simpa using hline
  | cons p ps ih =>
    obtain ⟨hp, hfits⟩ := List.forall_mem_cons.1 hfits
    have hnext := @ih [p] (fun front q hne hmem => hjoin front q hne fun r hr =>
      List.mem_append_right _ (hmem r hr)) hfits (by simpa using hp)
    rw [layOut]
    split
    · exact hnext
    · next hempty =>
      split
      · exact List.forall_mem_cons.2 ⟨hline, hnext⟩
      · next hroom =>
        refine ih (by simpa using hjoin) hfits ?_
        -- the longer line is no wider than its parts, for which there is room
        have hle := hjoin line p hempty fun q hq => by
          rcases List.mem_append.1 hq with hq | hq
          · exact List.mem_append_left _ hq
          · exact List.mem_append_right _ (List.mem_singleton.1 hq ▸ List.mem_cons_self)
        omega

/-- A piece comes from the same word as the one before it or from a later one; and if it comes from
    the same word, the two do not fit into one line. -/
def Piece.Follows (m : Measure) (limit : Nat) (p q : Piece) : Prop :=
  p.word ≤ q.word ∧ (p.word = q.word → limit < total m.ofChar p.text + total m.ofChar q.text)

/-- No line has two pieces of one word. -/
theorem apart_of_mem_layOut (hm : m.SumsOver text)
    (hps : ∀ p ∈ line ++ ps, ∀ c ∈ p.text, c ∈ text)
    (hfollows : (line ++ ps).IsChain (Piece.Follows m limit))
    (hline : line.Pairwise (·.word < ·.word)) :
    ∀ l ∈ layOut m limit line ps, l.Pairwise (·.word < ·.word) := by
  induction ps generalizing line with
  | nil =>
    rw [layOut]
    split
    · simp
    · simpa using hline
  | cons p ps ih =>
    have hrest : ∀ q ∈ [p] ++ ps, ∀ c ∈ q.text, c ∈ text := fun q hq =>
      hps q (List.mem_append_right _ hq)
    have hnext := ih hrest hfollows.right_of_append (List.pairwise_singleton _ _)
    rw [layOut]
    split
    · exact hnext
    · next hempty =>
      split
      · exact List.forall_mem_cons.2 ⟨hline, hnext⟩
      · next hroom =>
        refine ih (by simpa using hps) (by simpa using hfollows) ?_
        -- the piece that fits behind the last one is from another word, which comes later
        obtain ⟨front, last, rfl⟩ : ∃ front last, line = front ++ [last] :=
          ⟨_, _, (List.dropLast_append_getLast hempty).symm⟩
        have hlast : last.Follows m limit p := by
          refine (List.isChain_append.1 hfollows).2.2 last ?_ p rfl
          simp
        have hless : last.word < p.word := by
          refine Nat.lt_of_le_of_ne hlast.1 fun hword => ?_
          have hwide := hlast.2 hword
          have hle := total_le_total_lineText m.ofChar front last
          rw [hm.lineText fun q hq => hps q (List.mem_append_left _ hq),
            hm.piece (hrest p (by simp))] at hroom
          omega
        rw [List.pairwise_append]
        refine ⟨hline, List.pairwise_singleton _ _, fun q hq r hr => ?_⟩
        rw [List.mem_singleton.1 hr]
        rcases List.mem_append.1 hq with hq | hq
        · exact ((List.pairwise_append.1 hline).2.2 q hq last (by simp)).trans hless
        · rw [List.mem_singleton.1 hq]
          exact hless

end Widths

/-! ## The pieces of a text -/

section Pieces

variable {m : Measure} {limit : Nat}

/-- Forgetting from which word pieces come gives their texts back. -/
private theorem map_text_mk (i : Nat) (texts : List (List Char)) :
    (texts.map (Piece.mk i)).map Piece.text = texts := by
  rw [List.map_map]
  exact List.map_id' texts

/-- A piece comes from a word, whose index it has. -/
private theorem mem_piecesFrom {ws : List (List Char)} {i : Nat} {p : Piece}
    (h : p ∈ piecesFrom m limit i ws) :
    ∃ k w, ws[k]? = some w ∧ p.word = i + k ∧ p.text ∈ cutWord m limit w := by
  induction ws generalizing i with
  | nil => cases h
  | cons w ws ih =>
    -- a piece of the first word, or of a later one, whose index is one more
    rcases List.mem_append.1 h with h | h
    · obtain ⟨text, htext, rfl⟩ := List.mem_map.1 h
      exact ⟨0, w, rfl, rfl, htext⟩
    · obtain ⟨k, v, hv, hword, htext⟩ := ih h
      exact ⟨k + 1, v, hv, by omega, htext⟩

/-- The pieces of a word are what cutting makes of it. -/
private theorem filter_piecesFrom (m : Measure) (limit : Nat) {ws : List (List Char)} {i k : Nat}
    {w : List Char} (h : ws[k]? = some w) :
    ((piecesFrom m limit i ws).filter (·.word = i + k)).map Piece.text = cutWord m limit w := by
  induction ws generalizing i k with
  | nil => cases h
  | cons v ws ih =>
    rw [piecesFrom, List.filter_append, List.map_append]
    cases k with
    | zero =>
      -- later words have greater indices
      have hlater : ∀ p ∈ piecesFrom m limit (i + 1) ws, ¬ p.word = i + 0 := by
        intro p hp
        obtain ⟨k, -, -, hword, -⟩ := mem_piecesFrom hp
        omega
      obtain rfl : v = w := by simpa using h
      have hown : ((cutWord m limit v).map (Piece.mk i)).filter (·.word = i + 0) =
          (cutWord m limit v).map (Piece.mk i) := List.filter_eq_self.2 (by simp)
      have hnone : (piecesFrom m limit (i + 1) ws).filter (·.word = i + 0) = [] :=
        List.filter_eq_nil_iff.2 (by simpa using hlater)
      rw [hown, hnone, List.map_nil, List.append_nil, map_text_mk]
    | succ k =>
      have hindex : i + (k + 1) = i + 1 + k := by omega
      rw [List.filter_eq_nil_iff.2 (by simp), hindex]
      exact ih h

/-- The texts of the pieces are what cutting makes of the words. -/
private theorem flatten_piecesFrom (m : Measure) (limit i : Nat) (ws : List (List Char)) :
    (piecesFrom m limit i ws).map Piece.text = ws.flatMap (cutWord m limit) := by
  induction ws generalizing i with
  | nil => rfl
  | cons w ws ih =>
    rw [piecesFrom, List.map_append, ih, List.flatMap_cons, map_text_mk]

/-- Each piece follows the one before it. -/
private theorem isChain_piecesFrom (m : Measure) (limit i : Nat) {ws : List (List Char)}
    (h : ∀ w ∈ ws, w ≠ []) : (piecesFrom m limit i ws).IsChain (Piece.Follows m limit) := by
  induction ws generalizing i with
  | nil => exact .nil
  | cons w ws ih =>
    obtain ⟨hw, h⟩ := List.forall_mem_cons.1 h
    -- pieces of one word follow each other, and those of later words have greater indices
    refine .append ?_ (ih (i + 1) h) fun p hp q hq => ?_
    · rw [List.isChain_map]
      exact (isCut_cutWord m limit hw).full.imp fun p q hwide => ⟨Nat.le_refl i, fun _ => hwide⟩
    · obtain ⟨text, -, rfl⟩ := List.mem_map.1 (List.mem_of_getLast? hp)
      obtain ⟨k, -, -, hword, -⟩ := mem_piecesFrom (List.mem_of_head? hq)
      have hless : i < q.word := by omega
      exact ⟨hless.le, fun heq => absurd heq hless.ne⟩

/-- A piece of a text is not empty and has no blanks. -/
private theorem mem_piecesFrom_words {text : List Char} {p : Piece}
    (h : p ∈ piecesFrom m limit 0 (words text)) :
    p.text ≠ [] ∧ ∀ c ∈ p.text, c ∈ text ∧ isBlank c = false := by
  obtain ⟨k, w, hw, -, htext⟩ := mem_piecesFrom h
  obtain ⟨hne, hchars⟩ := mem_words (List.mem_of_getElem? hw)
  have hcut := isCut_cutWord m limit hne
  exact ⟨hcut.ne_nil _ htext, fun c hc =>
    hchars c (hcut.flatten ▸ List.mem_flatten.2 ⟨_, htext, hc⟩)⟩

/-- A piece fits into a line that is wide enough for each character. -/
private theorem total_le_of_mem_piecesFrom {text : List Char} {p : Piece}
    (hchars : ∀ c ∈ text, m.ofChar c ≤ limit) (h : p ∈ piecesFrom m limit 0 (words text)) :
    total m.ofChar p.text ≤ limit := by
  obtain ⟨k, w, hw, -, htext⟩ := mem_piecesFrom h
  obtain ⟨hne, hword⟩ := mem_words (List.mem_of_getElem? hw)
  exact (isCut_cutWord m limit hne).fits (fun c hc => hchars c (hword c hc).1) _ htext

end Pieces

/-! ## Greedy wrapping -/

/-- A layout of a text in lines of pieces of its words, greedily filled. -/
structure IsWrap (m : Measure) (limit : Nat) (text : List Char) (layout : List (List Piece)) :
    Prop where
  /-- Each piece belongs to a word of the text, and is not empty. -/
  word_lt : ∀ p ∈ layout.flatten, p.word < (words text).length
  ne_nil : ∀ p ∈ layout.flatten, p.text ≠ []
  /-- The words stand in their order, each with all of its characters. -/
  sorted : layout.flatten.Pairwise (·.word ≤ ·.word)
  whole : ∀ i word, (words text)[i]? = some word →
    ((layout.flatten.filter (·.word = i)).map Piece.text).flatten = word
  /-- A word that fits into a line is one piece. -/
  uncut : ∀ i word, (words text)[i]? = some word → m.ofText word ≤ limit →
    (layout.flatten.filter (·.word = i)).map Piece.text = [word]
  /-- No line is empty or has two pieces of one word. -/
  line_ne_nil : ∀ line ∈ layout, line ≠ []
  apart : ∀ line ∈ layout, line.Pairwise (·.word < ·.word)
  /-- A line fits where any single character does. -/
  fits : 2 ≤ limit → ∀ line ∈ layout, m.ofText (lineText line) ≤ limit
  /-- A line ends only where the next piece does not fit behind it. -/
  greedy : layout.IsChain fun line next =>
    ∀ p ∈ next.head?, limit < m.ofText (lineText line) + 1 + m.ofText p.text

/-- A line of pieces without blanks neither starts nor ends with one. -/
private theorem ends_lineText {line : List Piece} (hline : line ≠ [])
    (h : ∀ p ∈ line, p.text ≠ [] ∧ ∀ c ∈ p.text, isBlank c = false) :
    (∃ c ∈ (lineText line).head?, isBlank c = false) ∧
      ∃ c ∈ (lineText line).getLast?, isBlank c = false := by
  -- the text starts with the first piece and ends with the last one, neither of which has blanks
  induction line with
  | nil => exact absurd rfl hline
  | cons p line ih =>
    obtain ⟨⟨hp, hblank⟩, hrest⟩ := List.forall_mem_cons.1 h
    have hhead : ∃ c ∈ p.text.head?, isBlank c = false :=
      ⟨p.text.head hp, List.head?_eq_some_head hp, hblank _ (List.head_mem hp)⟩
    by_cases hnil : line = []
    · subst hnil
      rw [lineText_singleton]
      exact ⟨hhead, p.text.getLast hp, List.getLast?_eq_some_getLast hp,
        hblank _ (List.getLast_mem hp)⟩
    · rw [lineText_cons hnil, List.head?_append_of_ne_nil _ hp]
      obtain ⟨-, c, hc, hlast⟩ := ih hnil hrest
      refine ⟨hhead, c, ?_, hlast⟩
      rw [List.getLast?_append, List.getLast?_cons, Option.mem_def.1 hc]
      rfl

/-- The characters of a line are those of its pieces, and blanks. -/
private theorem filter_lineText {line : List Piece}
    (h : ∀ p ∈ line, ∀ c ∈ p.text, isBlank c = false) :
    (lineText line).filter (!isBlank ·) = (line.map Piece.text).flatten := by
  induction line with
  | nil => rfl
  | cons p line ih =>
    obtain ⟨hp, hrest⟩ := List.forall_mem_cons.1 h
    have hkeep : p.text.filter (!isBlank ·) = p.text :=
      List.filter_eq_self.2 fun c hc => by simp [hp c hc]
    rw [List.map_cons, List.flatten_cons, ← ih hrest]
    by_cases hnil : line = []
    · simp [hnil, hkeep]
    · rw [lineText_cons hnil, List.filter_append, hkeep, List.filter_cons_of_neg (by decide)]

/-- Lines of pieces of a text have the characters of the text, and blanks. -/
private theorem filter_map_lineText {m : Measure} {limit : Nat} {text : List Char}
    {layout : List (List Piece)} (h : layout.flatten = piecesFrom m limit 0 (words text)) :
    (layout.map lineText).flatten.filter (!isBlank ·) = text.filter (!isBlank ·) := by
  have hlines : ∀ line ∈ layout, (lineText line).filter (!isBlank ·) =
      (line.map Piece.text).flatten := fun line hline => filter_lineText fun p hp c hc => by
    have hmem : p ∈ layout.flatten := List.mem_flatten.2 ⟨line, hline, hp⟩
    exact ((mem_piecesFrom_words (h ▸ hmem)).2 c hc).2
  -- step by step from the lines back to the text: pieces, words, and what is no blank
  calc (layout.map lineText).flatten.filter (!isBlank ·)
      = (layout.map fun line => (line.map Piece.text).flatten).flatten := by
        rw [List.filter_flatten, List.map_map]
        exact congrArg List.flatten (List.map_congr_left hlines)
    _ = ((piecesFrom m limit 0 (words text)).map Piece.text).flatten := by
        rw [← h, List.map_flatten, List.flatten_flatten, List.map_map]
        rfl
    _ = ((words text).map fun w => (cutWord m limit w).flatten).flatten := by
        rw [flatten_piecesFrom, List.flatMap, List.flatten_flatten, List.map_map]
        rfl
    _ = (words text).flatten := by
        have hcut : ∀ w ∈ words text, (cutWord m limit w).flatten = w := fun w hw =>
          (isCut_cutWord m limit (mem_words hw).1).flatten
        rw [List.map_congr_left hcut, List.map_id']
    _ = text.filter (!isBlank ·) := flatten_words text

/-- Packing the pieces of a text lays it out. -/
private theorem isWrap_layOut {m : Measure} {text : List Char} (hm : m.SumsOver text)
    (limit : Nat) :
    IsWrap m limit text (layOut m limit [] (piecesFrom m limit 0 (words text))) := by
  have hwords : ∀ w ∈ words text, w ≠ [] := fun w hw => (mem_words hw).1
  have hchars : ∀ p ∈ [] ++ piecesFrom m limit 0 (words text), ∀ c ∈ p.text, c ∈ text :=
    fun p hp c hc => ((mem_piecesFrom_words hp).2 c hc).1
  have hchain := isChain_piecesFrom m limit 0 hwords
  have hflatten := flatten_layOut m limit [] (piecesFrom m limit 0 (words text))
  rw [List.nil_append] at hflatten
  -- the pieces of a word in the lines are those that cutting made of it
  have hpieces : ∀ i w, (words text)[i]? = some w →
      (((layOut m limit [] (piecesFrom m limit 0 (words text))).flatten.filter
        (·.word = i)).map Piece.text) = cutWord m limit w := fun i w hw => by
    rw [hflatten, ← filter_piecesFrom m limit hw (i := 0), Nat.zero_add]
  refine ⟨fun p hp => ?_, fun p hp => ?_, ?_, fun i w hw => ?_, fun i w hw hfits => ?_,
    fun line hline hnil => nil_not_mem_layOut m limit _ _ (hnil ▸ hline),
    apart_of_mem_layOut hm hchars hchain .nil, fun hlimit line hline => ?_,
    isChain_layOut m limit _ _⟩
  · obtain ⟨k, w, hw, hword, -⟩ := mem_piecesFrom (hflatten ▸ hp)
    obtain ⟨hk, -⟩ := List.getElem?_eq_some_iff.1 hw
    omega
  · exact (mem_piecesFrom_words (hflatten ▸ hp)).1
  · rw [hflatten]
    exact List.isChain_iff_pairwise.1 (hchain.imp fun p q h => h.1)
  · rw [hpieces i w hw]
    exact (isCut_cutWord m limit (hwords w (List.mem_of_getElem? hw))).flatten
  · have hw' := List.mem_of_getElem? hw
    rw [hpieces i w hw]
    refine (isCut_cutWord m limit (hwords w hw')).uncut ?_
    rwa [← hm.sum w fun c hc => .inr ((mem_words hw').2 c hc).1]
  · refine ofText_le_of_mem_layOut (fun front p hne hmem => ?_) (fun p hp => ?_) ?_ line hline
    · have hfront : ∀ q ∈ front, ∀ c ∈ q.text, c ∈ text := fun q hq =>
        hchars q (hmem q (List.mem_append_left _ hq))
      have hall : ∀ q ∈ front ++ [p], ∀ c ∈ q.text, c ∈ text := fun q hq => hchars q (hmem q hq)
      rw [hm.lineText hall, hm.lineText hfront, hm.piece (hall p (by simp)),
        hm.total_lineText hne]
    · rw [hm.piece (hchars p hp)]
      exact total_le_of_mem_piecesFrom (fun c hc => (hm.char_le c hc).trans hlimit) hp
    · rw [lineText_nil, hm.sum [] (by simp)]
      exact Nat.zero_le _

/-- Wrapping a text is packing the pieces of its words. -/
private theorem wrap_eq (m : Measure) {limit : Nat} (hlimit : 1 ≤ limit) (text : List Char) :
    wrap m limit text =
      (layOut m limit [] (piecesFrom m limit 0 (words text))).map lineText := by
  rw [wrap, if_neg (by omega), ← flatten_piecesFrom m limit 0]
  exact @pack_eq m limit [] _ fun p hp => (mem_piecesFrom_words hp).1

/-- Wrapping loses nothing but blanks.  No line is empty or starts or ends with a blank, and the
    lines are a greedy layout of the words: one space stands between pieces of different words and
    none within a word, a word that fits is not cut, every line fits, and no line has room for the
    piece that starts the next one. -/
theorem wrap_greedy (m : Measure) (text : List Char) (hm : m.SumsOver text) (limit : Nat)
    (hlimit : 1 ≤ limit) :
    (wrap m limit text).flatten.filter (!isBlank ·) = text.filter (!isBlank ·) ∧
    (∀ line ∈ wrap m limit text, line ≠ [] ∧
      (∃ c ∈ line.head?, isBlank c = false) ∧ ∃ c ∈ line.getLast?, isBlank c = false) ∧
    words text = (text.splitOnP isBlank).filter (· ≠ []) ∧
    ∃ layout, wrap m limit text = layout.map lineText ∧ IsWrap m limit text layout := by
  have hflatten := flatten_layOut m limit [] (piecesFrom m limit 0 (words text))
  rw [List.nil_append] at hflatten
  have hwrap := wrap_eq m hlimit text
  have hlayout := isWrap_layOut hm limit
  refine ⟨hwrap ▸ filter_map_lineText hflatten, fun line hmem => ?_, words_eq text, _, hwrap,
    hlayout⟩
  rw [hwrap] at hmem
  obtain ⟨pieces, hpieces, rfl⟩ := List.mem_map.1 hmem
  -- a line is made of pieces, which have no blanks
  have hends := ends_lineText (hlayout.line_ne_nil pieces hpieces) fun p hp => by
    have hp' : p ∈ piecesFrom m limit 0 (words text) :=
      hflatten ▸ List.mem_flatten.2 ⟨pieces, hpieces, hp⟩
    exact (mem_piecesFrom_words hp').imp_right fun hchars c hc => (hchars c hc).2
  refine ⟨fun hnil => ?_, hends⟩
  obtain ⟨c, hc, -⟩ := hends.1
  rw [hnil] at hc
  cases hc

/-- The second word is cut behind two wide characters; its accent stays with its letter. -/
theorem wrap_greedy_cut :
    let text := "1 漢漢漢e\u0301 2".toList
    wrap .display 4 text = ["1".toList, "漢漢".toList, "漢e\u0301".toList, "2".toList] ∧
    (wrap .display 4 text).flatten.filter (!isBlank ·) = text.filter (!isBlank ·) ∧
    ∃ layout, wrap .display 4 text = layout.map lineText ∧ IsWrap .display 4 text layout := by
  have halone : ("1 漢漢漢e\u0301 2".toList.all fun c => StandsAlone c ∧ charWidth c ≤ 2) = true := by
    decide +kernel
  have hsums : Measure.display.SumsOver "1 漢漢漢e\u0301 2".toList :=
    Measure.sumsOver_display fun c hc => of_decide_eq_true (List.all_eq_true.1 halone c hc)
  obtain ⟨hchars, -, -, hlayout⟩ := wrap_greedy .display "1 漢漢漢e\u0301 2".toList hsums 4 (by decide)
  exact ⟨by decide +kernel, hchars, hlayout⟩

/-! ## Wrapped lines on a screen -/

/-- On a screen a wrapped line fits, if each character of the text does and none of them is a
    selector. -/
theorem width_le_of_mem_wrap {limit : Nat} (hlimit : 1 ≤ limit) {text : List Char}
    (hselector : emojiSelector ∉ text) (hchars : ∀ c ∈ text, charWidth c ≤ limit) :
    ∀ line ∈ wrap .display limit text, width line ≤ limit := by
  intro line hline
  rw [wrap_eq .display hlimit text] at hline
  obtain ⟨pieces, hpieces, rfl⟩ := List.mem_map.1 hline
  refine @ofText_le_of_mem_layOut .display limit [] _ (fun front p hne _ => ?_) (fun p hp => ?_)
    (Nat.zero_le _) pieces hpieces
  · rw [lineText_append_singleton hne]
    exact width_append_space_le _ _
  · have hmem : ∀ c ∈ p.text, c ∈ text := fun c hc => ((mem_piecesFrom_words hp).2 c hc).1
    exact (width_le_total_charWidth fun h => hselector (hmem _ h)).trans
      (total_le_of_mem_piecesFrom (m := .display) hchars hp)

end DeskCalc.Text
