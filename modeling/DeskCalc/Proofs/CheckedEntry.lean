import DeskCalc.Editing.EntryField
import DeskCalc.Proofs.ByteOffsets
import Mathlib.Data.List.DropRight

/-!
# The entry field with every access checked

The text of the entry field is cut at byte offsets, its characters are looked up by index, and the
scroll offset is found by subtraction.  Here each of these accesses can fail: a cut through a
character, a lookup behind the last character, and a subtraction from too small a number give none.
Nothing of this ever happens, and what comes out is what the field does.

The cursor of the field stays within its text.

## Key results

- `skipLeft?_eq`, `skipRight?_eq`: the moves by words look up characters of the text only
- `insert?_eq`, `delete?_eq`, `backspace?_eq`, `wordLeft?_eq`, `wordRight?_eq`, `fitScroll?_eq`: no
  access fails
- `scroll_fitScroll_le`: the window starts before the cursor or at it
- `EditLine.InText`: the cursor is within the text, which every operation keeps
-/

namespace DeskCalc

/-! ## Checked operations -/

namespace EntryField

/-- Puts `c` at the byte offset of the cursor. -/
def insert? (f : EntryField) (c : Char) : Option EntryField :=
  (Text.cutAtByte f.chars (EditLine.byteOffset f.chars f.cursor)).map fun parts =>
    { f with line := ⟨parts.1 ++ c :: parts.2, f.cursor + 1⟩ }

/-- Removes the character that starts at the byte offset of the cursor, unless the text ends
    there. -/
def delete? (f : EntryField) : Option EntryField :=
  let offset := EditLine.byteOffset f.chars f.cursor
  if offset < Text.byteLength f.chars then
    match Text.cutAtByte f.chars offset with
    | some (front, _ :: behind) => some { f with line := ⟨front ++ behind, f.cursor⟩ }
    | _ => none
  else some f

/-- Removes the character before the cursor, if there is one. -/
def backspace? (f : EntryField) : Option EntryField :=
  if f.cursor = 0 then some f
  else delete? { f with line := { f.line with cursor := f.cursor - 1 } }

/-- Goes left from a character index as long as the character before it satisfies `p`. -/
def skipLeft? (p : Char → Bool) (cs : List Char) : Nat → Option Nat
  | 0 => some 0
  | n + 1 =>
    match cs[n]? with
    | none => none
    | some c => if p c then skipLeft? p cs n else some (n + 1)

/-- Goes right from a character index as long as the character at it satisfies `p`. -/
def skipRight? (p : Char → Bool) (cs : List Char) (n : Nat) : Option Nat :=
  if n < cs.length then
    match cs[n]? with
    | none => none
    | some c => if p c then skipRight? p cs (n + 1) else some n
  else some n
termination_by cs.length - n

/-- Moves over the spaces before the cursor and the word before them. -/
def wordLeft? (f : EntryField) : Option EntryField :=
  (skipLeft? isSpace f.chars (min f.cursor f.chars.length)).bind fun n =>
    (skipLeft? (!isSpace ·) f.chars n).map fun cursor =>
      { f with line := { f.line with cursor } }

/-- Moves over the word at the cursor and the spaces behind it. -/
def wordRight? (f : EntryField) : Option EntryField :=
  (skipRight? (!isSpace ·) f.chars (min f.cursor f.chars.length)).bind fun n =>
    (skipRight? isSpace f.chars n).map fun cursor =>
      { f with line := { f.line with cursor } }

/-- Scrolls as little as needed to have the cursor in a window of `width` characters. -/
def fitScroll? (f : EntryField) (width : Nat) : Option EntryField :=
  if f.cursor < f.scroll then some { f with scroll := f.cursor }
  else if 0 < width ∧ f.scroll + width ≤ f.cursor then
    if width ≤ f.cursor + 1 then some { f with scroll := f.cursor + 1 - width } else none
  else some f

/-! ## No access fails -/

/-- `insert?` never fails. -/
theorem insert?_eq (f : EntryField) (c : Char) : f.insert? c = some (f.insert c) := by
  rw [insert?, Text.cutAtByte_byteOffset]
  rfl

/-- `delete?` never fails. -/
theorem delete?_eq (f : EntryField) : f.delete? = some f.delete := by
  have hdelete : f.delete = { f with line := ⟨f.chars.eraseIdx f.cursor, f.cursor⟩ } := rfl
  rw [delete?, Text.cutAtByte_byteOffset, Text.byteOffset_eq_byteLength, hdelete]
  by_cases hlt : f.cursor < f.chars.length
  · have hdrop : f.chars.drop f.cursor = f.chars[f.cursor] :: f.chars.drop (f.cursor + 1) :=
      List.drop_eq_getElem_cons hlt
    -- the character at the cursor has bytes, so the offset is in front of the last one
    have hbytes : Text.byteLength (f.chars.take f.cursor) < Text.byteLength f.chars := by
      have hpos := f.chars[f.cursor].utf8Size_pos
      conv_rhs => rw [← List.take_append_drop f.cursor f.chars, hdrop]
      rw [Text.byteLength_append, Text.byteLength_cons]
      omega
    simp only [if_pos hbytes, hdrop]
    rw [List.eraseIdx_eq_take_drop_succ]
  · -- behind the text there is nothing to remove
    have hle := Nat.le_of_not_lt hlt
    rw [List.take_of_length_le hle, if_neg (Nat.lt_irrefl _), List.eraseIdx_of_length_le hle]
    rfl

/-- `backspace?` never fails. -/
theorem backspace?_eq (f : EntryField) : f.backspace? = some f.backspace := by
  show (if f.line.cursor = 0 then some f else _) = _
  unfold backspace EditLine.backspace
  by_cases hcursor : f.line.cursor = 0
  · rw [if_pos hcursor, if_pos hcursor]
  · rw [if_neg hcursor, if_neg hcursor, delete?_eq]
    rfl

/-- Going left drops characters from the end of what stands before the index. -/
theorem skipLeft?_eq {p : Char → Bool} {cs : List Char} {n : Nat} (h : n ≤ cs.length) :
    skipLeft? p cs n = some ((cs.take n).rdropWhile p).length := by
  induction n with
  | zero => simp [skipLeft?]
  | succ n ih =>
    have hget : cs[n]? = some cs[n] := List.getElem?_eq_getElem h
    rw [skipLeft?, hget, List.take_add_one, hget, Option.toList_some, ih (Nat.le_of_succ_le h)]
    -- the character before the index is dropped, or it is the last one that stays
    by_cases hp : p cs[n] = true
    · simp only [if_pos hp, List.rdropWhile_concat_pos p _ _ hp]
    · simp only [if_neg hp, List.rdropWhile_concat_neg p _ _ hp]
      rw [List.length_append, List.length_take_of_le (Nat.le_of_succ_le h)]
      rfl

/-- Going right drops characters from the front of what stands behind the index. -/
theorem skipRight?_eq {p : Char → Bool} {cs : List Char} {n : Nat} (h : n ≤ cs.length) :
    skipRight? p cs n = some (cs.length - ((cs.drop n).dropWhile p).length) := by
  -- the four ways in which a step to the right can go, the failing access first
  fun_induction skipRight? p cs n with
  | case1 n hlt hnone => rw [List.getElem?_eq_getElem hlt] at hnone; cases hnone
  | case2 n hlt c hc hp ih =>
    have hdrop : cs.drop n = c :: cs.drop (n + 1) := by
      rw [List.drop_eq_getElem_cons hlt, (List.getElem?_eq_some_iff.1 hc).2]
    rw [ih hlt, hdrop, List.dropWhile_cons_of_pos hp]
  | case3 n hlt c hc hp =>
    have hdrop : cs.drop n = c :: cs.drop (n + 1) := by
      rw [List.drop_eq_getElem_cons hlt, (List.getElem?_eq_some_iff.1 hc).2]
    rw [hdrop, List.dropWhile_cons_of_neg hp, ← hdrop, List.length_drop]
    congr 1
    omega
  | case4 n hge =>
    rw [List.drop_of_length_le (Nat.le_of_not_lt hge)]
    simp
    omega

/-- The spaces at the end are dropped, and then the word in front of them. -/
theorem lengthBeforeWord_eq (cs : List Char) :
    lengthBeforeWord cs = ((cs.rdropWhile isSpace).rdropWhile (!isSpace ·)).length := by
  simp [lengthBeforeWord, List.rdropWhile]

/-- `wordLeft?` never fails. -/
theorem wordLeft?_eq (f : EntryField) : f.wordLeft? = some f.wordLeft := by
  have hmin : f.chars.take (min f.cursor f.chars.length) = f.chars.take f.cursor := by
    rw [List.take_eq_take_iff, Nat.min_assoc, Nat.min_self]
  -- the first move ends behind a part of the text, from which the second one starts
  have hprefix : (f.chars.take f.cursor).rdropWhile isSpace <+: f.chars :=
    (List.rdropWhile_prefix _ _).trans (List.take_prefix _ _)
  have hback := (List.prefix_iff_eq_take.1 hprefix).symm
  rw [wordLeft?, skipLeft?_eq (Nat.min_le_right _ _), hmin, Option.bind_some,
    skipLeft?_eq hprefix.length_le, hback, Option.map_some, wordLeft, lengthBeforeWord_eq]

/-- `wordRight?` never fails. -/
theorem wordRight?_eq (f : EntryField) : f.wordRight? = some f.wordRight := by
  unfold wordRight? wordRight lengthPastWord
  have hstart : min f.cursor f.chars.length ≤ f.chars.length := Nat.min_le_right _ _
  generalize min f.cursor f.chars.length = start at hstart
  -- the first move ends before a rest of the text, with which the second one starts
  have hsuffix : (f.chars.drop start).dropWhile (!isSpace ·) <:+ f.chars :=
    (List.dropWhile_suffix _).trans (List.drop_suffix _ _)
  have hrest := (List.suffix_iff_eq_drop.1 hsuffix).symm
  have hlength := (List.dropWhile_suffix (l := (f.chars.drop start).dropWhile (!isSpace ·))
    isSpace).length_le.trans (List.dropWhile_suffix _).length_le
  rw [List.length_drop] at hlength
  -- both sides count what the two moves drop in front
  have hcursor : f.chars.length -
      (((f.chars.drop start).dropWhile (!isSpace ·)).dropWhile isSpace).length =
      start + ((f.chars.drop start).length -
        (((f.chars.drop start).dropWhile (!isSpace ·)).dropWhile isSpace).length) := by
    rw [List.length_drop]
    omega
  rw [skipRight?_eq hstart, Option.bind_some, skipRight?_eq (Nat.sub_le _ _), hrest,
    Option.map_some, hcursor]

/-- `fitScroll?` never fails. -/
theorem fitScroll?_eq (f : EntryField) (width : Nat) :
    f.fitScroll? width = some (f.fitScroll width) := by
  unfold fitScroll? fitScroll
  by_cases hscroll : f.cursor < f.scroll
  · rw [if_pos hscroll, if_pos hscroll]
  · rw [if_neg hscroll, if_neg hscroll]
    by_cases hwidth : 0 < width ∧ f.scroll + width ≤ f.cursor
    · have hle : width ≤ f.cursor + 1 := by omega
      rw [if_pos hwidth, if_pos hwidth, if_pos hle]
    · rw [if_neg hwidth, if_neg hwidth]

end EntryField

/-! ## The cursor within the text -/

namespace EditLine

/-- The cursor is within the text or behind its last character. -/
def InText (l : EditLine) : Prop := l.cursor ≤ l.chars.length

/-- A text that is put in the line has the cursor behind it. -/
theorem inText_ofText (chars : List Char) : (ofText chars).InText := Nat.le_refl _

/-- `insert` keeps the cursor in the text. -/
theorem InText.insert {l : EditLine} (h : l.InText) (c : Char) : (l.insert c).InText := by
  show l.cursor + 1 ≤ (l.chars.take l.cursor ++ c :: l.chars.drop l.cursor).length
  rw [List.length_append, List.length_cons, List.length_drop, List.length_take_of_le h]
  omega

/-- Removing the character at the cursor leaves the ones before it. -/
theorem InText.delete {l : EditLine} (h : l.InText) : l.delete.InText := by
  show l.cursor ≤ (l.chars.eraseIdx l.cursor).length
  unfold InText at h
  rw [List.length_eraseIdx]
  split <;> omega

/-- The cursor may be moved to the left. -/
private theorem InText.withCursor {l : EditLine} (h : l.InText) {cursor : Nat}
    (hle : cursor ≤ l.cursor) :
    InText { l with cursor } :=
  Nat.le_trans hle h

/-- `left` keeps the cursor in the text. -/
theorem InText.left {l : EditLine} (h : l.InText) : l.left.InText := h.withCursor (Nat.sub_le _ _)

/-- `backspace` keeps the cursor in the text. -/
theorem InText.backspace {l : EditLine} (h : l.InText) : l.backspace.InText := by
  unfold EditLine.backspace
  split
  · exact h
  · exact h.left.delete

/-- `right` stops behind the text. -/
theorem inText_right (l : EditLine) : l.right.InText := Nat.min_le_right _ _

/-- `home` keeps the cursor in the text. -/
theorem InText.home {l : EditLine} (h : l.InText) : l.home.InText := h.withCursor (Nat.zero_le _)

/-- `toEnd` puts the cursor behind the text. -/
theorem inText_toEnd (l : EditLine) : l.toEnd.InText := Nat.le_refl _

end EditLine

namespace EntryField

/-- The move to the left over a word ends in the text. -/
theorem inText_wordLeft (f : EntryField) : f.wordLeft.line.InText := by
  show lengthBeforeWord (f.chars.take f.cursor) ≤ f.chars.length
  rw [lengthBeforeWord_eq]
  exact ((List.rdropWhile_prefix _ _).trans
    ((List.rdropWhile_prefix _ _).trans (List.take_prefix _ _))).length_le

/-- The move to the right over a word ends in the text. -/
theorem inText_wordRight (f : EntryField) : f.wordRight.line.InText := by
  show min f.cursor f.chars.length +
    lengthPastWord (f.chars.drop (min f.cursor f.chars.length)) ≤ f.chars.length
  unfold lengthPastWord
  rw [List.length_drop]
  omega

/-- `fitScroll` leaves the line as it is. -/
theorem line_fitScroll (f : EntryField) (width : Nat) : (f.fitScroll width).line = f.line := by
  unfold fitScroll
  split
  · rfl
  · split <;> rfl

/-- Behind fitting, the window starts before the cursor or at it, and ends behind it. -/
theorem scroll_fitScroll_le (f : EntryField) {width : Nat} (h : 0 < width) :
    (f.fitScroll width).scroll ≤ (f.fitScroll width).cursor ∧
      (f.fitScroll width).cursor < (f.fitScroll width).scroll + width := by
  have hcursor : (f.fitScroll width).cursor = f.cursor :=
    congrArg EditLine.cursor (line_fitScroll f width)
  rw [hcursor]
  unfold fitScroll
  -- the window jumps back to the cursor, or forward to it, or stays
  split
  · exact ⟨Nat.le_refl _, Nat.lt_add_of_pos_right h⟩
  · split
    · next hbehind =>
      show f.cursor + 1 - width ≤ f.cursor ∧ f.cursor < f.cursor + 1 - width + width
      omega
    · omega

end EntryField

end DeskCalc
