import DeskCalc.Proofs.CheckedEntry
import DeskCalc.Proofs.LineZipper
import Mathlib.Data.List.Induction
import Mathlib.Data.Nat.Dist

/-!
# The entry field as a zipper behind a window

The entry field is edited as a line split at the cursor is.  The moves by words skip spaces and then
the characters of a word, or the other way round; they come to the nearest place where a word
starts, on either side of the cursor.  The window is moved only when it is fitted, and then no
farther than it has to be.

## Key results

- `isWordStartBefore`, `isWordStartBehind`: the nearest place where a word starts, on either side
- `cursor_wordLeft`, `cursor_wordRight`: the moves by words come to it
- `line_edit`: an edit does to the line of the field what it does to the reference
- `edit?_eq`: no edit cuts a character or looks behind the text
- `dist_scroll_fitScroll_le`: no window with the cursor in it is nearer
- `edits_as_zipper`: any edits of an empty field
-/

namespace DeskCalc

namespace EntryField

/-! ## Edits -/

/-- What can be done to an entry field. -/
inductive Edit where
  | insert (c : Char)
  | delete
  | backspace
  | left
  | right
  | home
  | toEnd
  | wordLeft
  | wordRight
  | replace (text : List Char)
  | clear
  | fitScroll (width : Nat)

/-- Edits a field. -/
def edit (f : EntryField) : Edit → EntryField
  | .insert c => f.insert c
  | .delete => f.delete
  | .backspace => f.backspace
  | .left => f.left
  | .right => f.right
  | .home => f.home
  | .toEnd => f.toEnd
  | .wordLeft => f.wordLeft
  | .wordRight => f.wordRight
  | .replace text => f.replace text
  | .clear => f.clear
  | .fitScroll width => f.fitScroll width

/-- Edits a field whose text is kept as bytes, with every access checked. -/
def edit? (f : EntryField) : Edit → Option EntryField
  | .insert c => f.insert? c
  | .delete => f.delete?
  | .backspace => f.backspace?
  | .wordLeft => f.wordLeft?
  | .wordRight => f.wordRight?
  | .fitScroll width => f.fitScroll? width
  | e => some (f.edit e)

/-- The field after several edits of an empty one. -/
def after (edits : List Edit) : EntryField := edits.foldl edit empty

/-- The field after several checked edits of an empty one. -/
def after? (edits : List Edit) : Option EntryField := edits.foldlM edit? empty

/-! ## Where words start -/

/-- A word starts at a character that is not a space, at the front of the text or behind a space. -/
def StartsWord (text : List Char) (i : Nat) : Prop :=
  i < text.length ∧ text[i]? ≠ some ' ' ∧ (i = 0 ∨ text[i - 1]? = some ' ')

instance (text : List Char) (i : Nat) : Decidable (StartsWord text i) :=
  inferInstanceAs (Decidable (_ ∧ _ ∧ _))

/-- The last index before `n` at which a word starts, or the front of the text if there is none. -/
def wordStartBefore (text : List Char) (n : Nat) : Nat :=
  ((List.range n).reverse.find? (StartsWord text ·)).getD 0

/-- The first index behind `n` at which a word starts, or the end of the text if there is none. -/
def wordStartBehind (text : List Char) (n : Nat) : Nat :=
  (((List.range text.length).drop (n + 1)).find? (StartsWord text ·)).getD text.length

/-- `wordStartBefore` looks at the nearest place first. -/
private theorem wordStartBefore_succ (text : List Char) (n : Nat) :
    wordStartBefore text (n + 1) = if StartsWord text n then n else wordStartBefore text n := by
  rw [wordStartBefore, List.range_succ, List.reverse_append, List.reverse_singleton,
    List.singleton_append, List.find?_cons]
  by_cases h : StartsWord text n <;> simp [h, wordStartBefore]

/-- A word starts at `i`, and at no later place before `n`; or none starts before `n`, and `i` is
    the front of the text. -/
def IsWordStartBefore (text : List Char) (n i : Nat) : Prop :=
  (∀ j < n, StartsWord text j → j ≤ i) ∧ (i = 0 ∨ i < n ∧ StartsWord text i)

/-- A word starts at `i`, and at no earlier place behind `n`; or none starts behind `n`, and `i` is
    the end of the text. -/
def IsWordStartBehind (text : List Char) (n i : Nat) : Prop :=
  (∀ j, n < j → StartsWord text j → i ≤ j) ∧ (i = text.length ∨ n < i ∧ StartsWord text i)

/-- `wordStartBefore` finds the nearest place before `n`. -/
theorem isWordStartBefore (text : List Char) (n : Nat) :
    IsWordStartBefore text n (wordStartBefore text n) := by
  induction n with
  | zero => exact ⟨fun j hj => absurd hj (Nat.not_lt_zero j), Or.inl rfl⟩
  | succ n ih =>
    obtain ⟨hlast, hstart⟩ := ih
    rw [wordStartBefore_succ]
    by_cases hn : StartsWord text n
    · rw [if_pos hn]
      exact ⟨fun j hj _ => Nat.le_of_lt_succ hj, Or.inr ⟨Nat.lt_succ_self n, hn⟩⟩
    · rw [if_neg hn]
      refine ⟨fun j hj hstartj => ?_, hstart.imp_right fun h => ⟨Nat.lt_succ_of_lt h.1, h.2⟩⟩
      -- an earlier place is known to the induction hypothesis, and no word starts at `n`
      rcases Nat.lt_succ_iff_lt_or_eq.1 hj with hlt | rfl
      · exact hlast j hlt hstartj
      · exact absurd hstartj hn

/-- No word starts behind the last character. -/
private theorem wordStartBehind_of_le {text : List Char} {n : Nat} (h : text.length ≤ n + 1) :
    wordStartBehind text n = text.length := by
  rw [wordStartBehind, List.drop_of_length_le (by rwa [List.length_range])]
  rfl

/-- `wordStartBehind` looks at the nearest place first. -/
private theorem wordStartBehind_of_lt {text : List Char} {n : Nat} (h : n + 1 < text.length) :
    wordStartBehind text n =
      if StartsWord text (n + 1) then n + 1 else wordStartBehind text (n + 1) := by
  have hlt : n + 1 < (List.range text.length).length := by rwa [List.length_range]
  rw [wordStartBehind, List.drop_eq_getElem_cons hlt, List.getElem_range, List.find?_cons]
  by_cases hstart : StartsWord text (n + 1) <;> simp [hstart, wordStartBehind]

/-- `wordStartBehind` finds the nearest place behind `n`. -/
theorem isWordStartBehind (text : List Char) (n : Nat) :
    IsWordStartBehind text n (wordStartBehind text n) := by
  -- by the number of characters that are left behind `n`
  induction hk : text.length - n generalizing n with
  | zero =>
    rw [wordStartBehind_of_le (by omega)]
    refine ⟨fun j hj hstart => ?_, Or.inl rfl⟩
    have hlt : j < text.length := hstart.1
    omega
  | succ k ih =>
    by_cases hnext : n + 1 < text.length
    · obtain ⟨hfirst, hstart⟩ := ih (n + 1) (by omega)
      rw [wordStartBehind_of_lt hnext]
      by_cases hn : StartsWord text (n + 1)
      · rw [if_pos hn]
        exact ⟨fun j hj _ => hj, Or.inr ⟨Nat.lt_succ_self n, hn⟩⟩
      · rw [if_neg hn]
        refine ⟨fun j hj hstartj => ?_, hstart.imp_right fun h => ⟨Nat.lt_of_succ_lt h.1, h.2⟩⟩
        -- no word starts at the next place, and later ones are known to the induction hypothesis
        rcases Nat.eq_or_lt_of_le (Nat.succ_le_of_lt hj) with rfl | hlt
        · exact absurd hstartj hn
        · exact hfirst j hlt hstartj
    · rw [wordStartBehind_of_le (by omega)]
      refine ⟨fun j hj hstart => ?_, Or.inl rfl⟩
      have hlt : j < text.length := hstart.1
      omega

/-- Behind the front of a text, a word starts at a character that is not a space behind one that
    is. -/
private theorem startsWord_succ_iff {text : List Char} {n : Nat} (h : n + 1 < text.length) :
    StartsWord text (n + 1) ↔ isSpace text[n] = true ∧ isSpace text[n + 1] = false := by
  have hn : n < text.length := Nat.lt_of_succ_lt h
  simp [StartsWord, isSpace, h, hn, and_comm]

/-- At its front a text starts with a word if it starts with no space. -/
private theorem startsWord_zero_iff {text : List Char} (h : 0 < text.length) :
    StartsWord text 0 ↔ isSpace text[0] = false := by
  simp [StartsWord, isSpace, h]

/-- No word starts at a space. -/
private theorem StartsWord.isSpace_eq_false {text : List Char} {n : Nat} (h : StartsWord text n)
    (hlt : n < text.length) : isSpace text[n] = false := by
  have hne : text[n]? ≠ some ' ' := h.2.1
  rw [List.getElem?_eq_getElem hlt] at hne
  simpa [isSpace] using hne

/-! ## The moves by words -/

/-- A space at the end is passed by the move to the left. -/
private theorem lengthBeforeWord_concat_space {c : Char} (h : isSpace c = true) (cs : List Char) :
    lengthBeforeWord (cs ++ [c]) = lengthBeforeWord cs := by
  rw [lengthBeforeWord_eq, lengthBeforeWord_eq, List.rdropWhile_concat_pos _ _ _ h]

/-- Without a space at the end, the move to the left passes the last word only. -/
private theorem lengthBeforeWord_concat {c : Char} (h : isSpace c = false) (cs : List Char) :
    lengthBeforeWord (cs ++ [c]) = (cs.rdropWhile (!isSpace ·)).length := by
  rw [lengthBeforeWord_eq, List.rdropWhile_concat_neg _ _ _ (by simp [h]),
    List.rdropWhile_concat_pos _ _ _ (by simp [h])]

/-- The move to the left ends at the last character before the cursor that starts a word. -/
private theorem lengthBeforeWord_take {text : List Char} {n : Nat} (h : n ≤ text.length) :
    lengthBeforeWord (text.take n) = wordStartBefore text n := by
  induction n with
  | zero => rfl
  | succ n ih =>
    rw [wordStartBefore_succ, ← ih (Nat.le_of_succ_le h), List.take_succ_eq_append_getElem h]
    cases hlast : isSpace text[n] with
    | true =>
      -- no word starts at the space that is passed
      have hstart : ¬ StartsWord text n := by
        intro hstart
        rw [hstart.isSpace_eq_false h] at hlast
        cases hlast
      rw [if_neg hstart, lengthBeforeWord_concat_space hlast]
    | false =>
      rw [lengthBeforeWord_concat hlast]
      cases n with
      | zero =>
        rw [if_pos ((startsWord_zero_iff h).2 hlast)]
        rfl
      | succ n =>
        -- the word goes on to the left unless there is a space
        rw [List.take_succ_eq_append_getElem (Nat.lt_of_succ_lt h)]
        cases hbefore : isSpace text[n] with
        | true =>
          rw [if_pos ((startsWord_succ_iff h).2 ⟨hbefore, hlast⟩),
            List.rdropWhile_concat_neg _ _ _ (by simp [hbefore]), List.length_append,
            List.length_take_of_le (by omega)]
          rfl
        | false =>
          have hstart : ¬ StartsWord text (n + 1) := by
            rw [startsWord_succ_iff h, hbefore]
            simp
          rw [if_neg hstart, lengthBeforeWord_concat hbefore,
            List.rdropWhile_concat_pos _ _ _ (by simp [hbefore])]

/-- No more is left behind a word than there was. -/
private theorem length_pastWord_le (cs : List Char) :
    ((cs.dropWhile (!isSpace ·)).dropWhile isSpace).length ≤ cs.length :=
  ((List.dropWhile_suffix _).trans (List.dropWhile_suffix _)).length_le

/-- A character of a word is passed by the move to the right. -/
private theorem lengthPastWord_cons {c : Char} (h : isSpace c = false) (cs : List Char) :
    lengthPastWord (c :: cs) = lengthPastWord cs + 1 := by
  have hle := length_pastWord_le cs
  unfold lengthPastWord
  rw [List.dropWhile_cons_of_pos (by simp [h]), List.length_cons]
  omega

/-- Behind a space, the move to the right passes spaces only. -/
private theorem lengthPastWord_cons_space {c : Char} (h : isSpace c = true) (cs : List Char) :
    lengthPastWord (c :: cs) = cs.length + 1 - (cs.dropWhile isSpace).length := by
  unfold lengthPastWord
  rw [List.dropWhile_cons_of_neg (by simp [h]), List.dropWhile_cons_of_pos h, List.length_cons]

/-- The move to the right ends at the first character behind the cursor that starts a word. -/
private theorem add_lengthPastWord_drop {text : List Char} {n : Nat} (h : n ≤ text.length) :
    n + lengthPastWord (text.drop n) = wordStartBehind text n := by
  -- by the number of characters that are left behind the cursor
  induction hk : text.length - n generalizing n with
  | zero =>
    obtain rfl : n = text.length := by omega
    rw [wordStartBehind_of_le (Nat.le_succ _), List.drop_length]
    rfl
  | succ k ih =>
    have hlt : n < text.length := by omega
    rw [List.drop_eq_getElem_cons hlt]
    by_cases hlast : n + 1 = text.length
    · -- only one character is left, which is passed
      rw [wordStartBehind_of_le hlast.ge, hlast, List.drop_length]
      cases hspace : isSpace text[n] <;> simp [lengthPastWord, hspace, hlast]
    · have hnext : n + 1 < text.length := by omega
      have hrest := ih (n := n + 1) hnext.le (by omega)
      rw [wordStartBehind_of_lt hnext]
      cases hspace : isSpace text[n] with
      | false =>
        have hstart : ¬ StartsWord text (n + 1) := by
          rw [startsWord_succ_iff hnext, hspace]
          simp
        -- the word goes on, so the move ends where it ends from the next character on
        rw [if_neg hstart, lengthPastWord_cons hspace, ← hrest]
        omega
      | true =>
        -- spaces are passed as long as there are any
        rw [lengthPastWord_cons_space hspace]
        rw [List.drop_eq_getElem_cons hnext] at hrest ⊢
        cases hspace' : isSpace text[n + 1] with
        | false =>
          rw [if_pos ((startsWord_succ_iff hnext).2 ⟨hspace, hspace'⟩),
            List.dropWhile_cons_of_neg (by simp [hspace'])]
          omega
        | true =>
          have hstart : ¬ StartsWord text (n + 1) := by
            rw [startsWord_succ_iff hnext, hspace']
            simp
          have hle := ((List.dropWhile_suffix isSpace (l := text.drop (n + 1 + 1))).length_le)
          rw [if_neg hstart, ← hrest, lengthPastWord_cons_space hspace',
            List.dropWhile_cons_of_pos hspace', List.length_cons]
          omega

/-- `wordLeft` goes to the nearest start of a word before the cursor. -/
theorem cursor_wordLeft {f : EntryField} (h : f.cursor ≤ f.chars.length) :
    f.wordLeft.cursor = wordStartBefore f.chars f.cursor :=
  lengthBeforeWord_take h

/-- `wordRight` goes to the nearest start of a word behind the cursor. -/
theorem cursor_wordRight {f : EntryField} (h : f.cursor ≤ f.chars.length) :
    f.wordRight.cursor = wordStartBehind f.chars f.cursor := by
  -- the cursor is within the text, so the move starts at it
  have hmin : min f.cursor f.chars.length = f.cursor := Nat.min_eq_left h
  rw [← add_lengthPastWord_drop h]
  show min f.cursor f.chars.length +
    lengthPastWord (f.chars.drop (min f.cursor f.chars.length)) = _
  rw [hmin]

example : wordStartBefore "ab  cd ef".toList 6 = 4 ∧ wordStartBehind "ab  cd ef".toList 1 = 4 := by
  decide

end EntryField

/-! ## The reference -/

namespace LineZipper

open EntryField (wordStartBefore wordStartBehind)

/-- The line with the cursor in front of the character with index `i`. -/
def moveTo (z : LineZipper) (i : Nat) : LineZipper := ⟨(z.text.take i).reverse, z.text.drop i⟩

/-- What an edit does to the line; fitting the window leaves the line as it is. -/
def edit (z : LineZipper) : EntryField.Edit → LineZipper
  | .insert c => z.insert c
  | .delete => z.delete
  | .backspace => z.backspace
  | .left => z.left
  | .right => z.right
  | .home => z.home
  | .toEnd => z.toEnd
  | .wordLeft => z.moveTo (wordStartBefore z.text z.before.length)
  | .wordRight => z.moveTo (wordStartBehind z.text z.before.length)
  | .replace text => ofText text
  | .clear => empty
  | .fitScroll _ => z

/-- The line after several edits of an empty one. -/
def after (edits : List EntryField.Edit) : LineZipper := edits.foldl edit empty

/-- `moveTo` moves the cursor and nothing else. -/
private theorem toLine_moveTo (z : LineZipper) {i : Nat} (h : i ≤ z.text.length) :
    (z.moveTo i).toLine = { z.toLine with cursor := i } := by
  have hlength : (z.text.take i).reverse.length = i := by
    rw [List.length_reverse, List.length_take_of_le h]
  have htext : (z.moveTo i).text = z.text := by
    rw [moveTo, text, List.reverse_reverse, List.take_append_drop]
  rw [toLine, htext, moveTo, hlength]
  rfl

/-- The cursor of the reference is within its text. -/
private theorem cursor_toLine_le (z : LineZipper) : z.toLine.cursor ≤ z.toLine.chars.length := by
  have hlength := z.length_text
  show z.before.length ≤ z.text.length
  omega

end LineZipper

namespace EntryField

/-! ## Edits and the reference -/

/-- An edit does to the line of the field what it does to the reference. -/
theorem line_edit {f : EntryField} {z : LineZipper} (h : f.line = z.toLine) (e : Edit) :
    (f.edit e).line = (z.edit e).toLine := by
  obtain ⟨line, scroll⟩ := f
  obtain rfl : line = z.toLine := h
  have hcursor : z.before.length ≤ z.text.length := z.cursor_toLine_le
  cases e with
  | insert c => exact (z.toLine_insert c).symm
  | delete => exact z.toLine_delete.symm
  | backspace => exact z.toLine_backspace.symm
  | left => exact z.toLine_left.symm
  | right => exact z.toLine_right.symm
  | home => exact z.toLine_home.symm
  | toEnd => exact z.toLine_toEnd.symm
  | wordLeft =>
    have hword : (wordLeft ⟨z.toLine, scroll⟩).cursor = wordStartBefore z.text z.before.length :=
      cursor_wordLeft hcursor
    -- the move ends in the text, so `moveTo` puts the cursor there
    have hin : (wordLeft ⟨z.toLine, scroll⟩).cursor ≤ z.text.length := inText_wordLeft _
    rw [hword] at hin
    rw [LineZipper.edit, z.toLine_moveTo hin]
    exact congrArg (EditLine.mk z.text) hword
  | wordRight =>
    have hword : (wordRight ⟨z.toLine, scroll⟩).cursor = wordStartBehind z.text z.before.length :=
      cursor_wordRight hcursor
    have hin : (wordRight ⟨z.toLine, scroll⟩).cursor ≤ z.text.length := inText_wordRight _
    rw [hword] at hin
    rw [LineZipper.edit, z.toLine_moveTo hin]
    exact congrArg (EditLine.mk z.text) hword
  | replace text => exact (LineZipper.toLine_ofText text).symm
  | clear => rfl
  | fitScroll width => exact line_fitScroll _ width

/-- Any edits leave the line that the reference has. -/
private theorem line_after (edits : List Edit) : (after edits).line =
    (LineZipper.after edits).toLine := by
  induction edits using List.reverseRecOn with
  | nil => rfl
  | append_singleton edits e ih =>
    rw [after, LineZipper.after, List.foldl_concat, List.foldl_concat]
    exact line_edit ih e

/-- No edit cuts a character or looks behind the text. -/
theorem edit?_eq (f : EntryField) (e : Edit) : f.edit? e = some (f.edit e) := by
  cases e with
  | insert c => exact f.insert?_eq c
  | delete => exact f.delete?_eq
  | backspace => exact f.backspace?_eq
  | wordLeft => exact f.wordLeft?_eq
  | wordRight => exact f.wordRight?_eq
  | fitScroll width => exact f.fitScroll?_eq width
  | _ => rfl

/-- Checked edits never fail. -/
private theorem after?_eq (edits : List Edit) : after? edits = some (after edits) := by
  induction edits using List.reverseRecOn with
  | nil => rfl
  | append_singleton edits e ih =>
    have hstep : after? (edits ++ [e]) = (after? edits).bind fun f => f.edit? e := by
      rw [after?, List.foldlM_append]
      simp [after?]
    rw [hstep, ih, Option.bind_some, edit?_eq, after, after, List.foldl_concat]

/-! ## The window -/

/-- The cursor is in the window of `width` characters that starts at `scroll`. -/
def InWindow (cursor width scroll : Nat) : Prop := scroll ≤ cursor ∧ cursor < scroll + width

/-- No window with the cursor in it starts nearer to where the window started before. -/
theorem dist_scroll_fitScroll_le (f : EntryField) {width scroll : Nat}
    (h : InWindow f.cursor width scroll) :
    Nat.dist f.scroll (f.fitScroll width).scroll ≤ Nat.dist f.scroll scroll := by
  obtain ⟨hle, hlt⟩ := h
  -- the three cases of `fitScroll`, in each of which the distance is a linear one
  unfold fitScroll Nat.dist
  split
  · show f.scroll - f.cursor + (f.cursor - f.scroll) ≤ _
    omega
  · split
    · show f.scroll - (f.cursor + 1 - width) + (f.cursor + 1 - width - f.scroll) ≤ _
      omega
    · omega

/-- A window with the cursor in it stays where it is. -/
private theorem fitScroll_of_inWindow {f : EntryField} {width : Nat}
    (h : InWindow f.cursor width f.scroll) : f.fitScroll width = f := by
  obtain ⟨hle, hlt⟩ := h
  unfold fitScroll
  rw [if_neg (by omega), if_neg (by omega)]

/-- Any edits of an empty field leave the text and the cursor that they leave of a line split at the
    cursor, and never cut a character or look behind the text.  The cursor stays within the text,
    and the moves by words bring it to the nearest place where a word starts.  Fitting the window
    moves the window to the nearest place with the cursor in it, and leaves it there when it is
    repeated. -/
theorem edits_as_zipper (edits : List Edit) :
    let f := after edits
    f.line = (LineZipper.after edits).toLine ∧ after? edits = some f ∧
      f.cursor ≤ f.chars.length ∧
      IsWordStartBefore f.chars f.cursor f.wordLeft.cursor ∧
      IsWordStartBehind f.chars f.cursor f.wordRight.cursor ∧
      ∀ width, 0 < width →
        let g := f.fitScroll width
        g.line = f.line ∧ InWindow f.cursor width g.scroll ∧
          (∀ scroll, InWindow f.cursor width scroll →
            Nat.dist f.scroll g.scroll ≤ Nat.dist f.scroll scroll) ∧
          g.fitScroll width = g := by
  intro f
  have hline : f.line = (LineZipper.after edits).toLine := line_after edits
  have hcursor : f.cursor ≤ f.chars.length := by
    show f.line.cursor ≤ f.line.chars.length
    rw [hline]
    exact (LineZipper.after edits).cursor_toLine_le
  refine ⟨hline, after?_eq edits, hcursor, ?_, ?_, fun width hwidth => ?_⟩
  · rw [cursor_wordLeft hcursor]
    exact isWordStartBefore f.chars f.cursor
  · rw [cursor_wordRight hcursor]
    exact isWordStartBehind f.chars f.cursor
  · intro g
    have hg : g.line = f.line := line_fitScroll f width
    -- the cursor is in the fitted window, which therefore stays
    have hin : InWindow g.cursor width g.scroll := f.scroll_fitScroll_le hwidth
    have hsame : g.cursor = f.cursor := congrArg EditLine.cursor hg
    refine ⟨hg, hsame ▸ hin, fun scroll => f.dist_scroll_fitScroll_le, ?_⟩
    exact fitScroll_of_inWindow hin

end EntryField

end DeskCalc
