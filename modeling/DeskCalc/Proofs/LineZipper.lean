import DeskCalc.Editing.KeyEditor
import DeskCalc.Proofs.PromptedLines
import DeskCalc.Proofs.Trimming

/-!
# The line editor as a zipper

A reference for the editor on a terminal line: the line split at the cursor, the lines entered
before, and the index of the one that has been recalled, which is never beyond them.  The editor
keeps a text and the number of characters before the cursor instead, and a program that keeps the
text as bytes has to find the place of the cursor in them.  All of this comes to the same.

## Key results

- `ZipperEditor.draft_press`: a key does to the draft of the editor what it does to the reference
- `ZipperEditor.read_eq`: the editor reads a line as the reference does
- `EditLine.isValid_byteOffset`, `EditLine.utf8Bytes_insert`, `EditLine.utf8Bytes_delete`: the place
  of the cursor in the bytes of the text, and what editing does to the bytes there
- `KeyEditor.reads_as_zipper`: reading line after line
-/

namespace DeskCalc

/-! ## The reference -/

/-- A line split at the cursor: the characters before it, the nearest first, and those behind it. -/
structure LineZipper where
  before : List Char
  behind : List Char

namespace LineZipper

/-- The empty line. -/
def empty : LineZipper := ⟨[], []⟩

/-- The text of the line. -/
def text (z : LineZipper) : List Char := z.before.reverse ++ z.behind

/-- A text with the cursor behind it. -/
def ofText (text : List Char) : LineZipper := ⟨text.reverse, []⟩

/-- Puts a character before the cursor. -/
def insert (z : LineZipper) (c : Char) : LineZipper := ⟨c :: z.before, z.behind⟩

/-- Removes the character before the cursor, if there is one. -/
def backspace : LineZipper → LineZipper
  | ⟨_ :: before, behind⟩ => ⟨before, behind⟩
  | z => z

/-- Removes the character at the cursor, if there is one. -/
def delete : LineZipper → LineZipper
  | ⟨before, _ :: behind⟩ => ⟨before, behind⟩
  | z => z

/-- Moves past the character before the cursor, if there is one. -/
def left : LineZipper → LineZipper
  | ⟨c :: before, behind⟩ => ⟨before, c :: behind⟩
  | z => z

/-- Moves past the character at the cursor, if there is one. -/
def right : LineZipper → LineZipper
  | ⟨before, c :: behind⟩ => ⟨c :: before, behind⟩
  | z => z

/-- Moves to the start. -/
def home (z : LineZipper) : LineZipper := ⟨[], z.text⟩

/-- Moves to the end. -/
def toEnd (z : LineZipper) : LineZipper := ofText z.text

/-- The line as a text with the number of characters before the cursor. -/
def toLine (z : LineZipper) : EditLine := ⟨z.text, z.before.length⟩

end LineZipper

/-- A line being edited, the lines entered before, the oldest first, and the index of the one that
    was recalled, which is the number of lines when none was. -/
structure ZipperEditor where
  line : LineZipper
  past : List (List Char)
  index : Nat
  index_le : index ≤ past.length

namespace ZipperEditor

/-- Nothing has been typed or recalled. -/
def fresh (past : List (List Char)) : ZipperEditor := ⟨.empty, past, past.length, le_rfl⟩

/-- Recalls a line. -/
def load (z : ZipperEditor) (i : Nat) (h : i < z.past.length) : ZipperEditor :=
  ⟨.ofText z.past[i], z.past, i, h.le⟩

/-- Recalls the line before the recalled one, if there is one. -/
def up (z : ZipperEditor) : ZipperEditor :=
  if h : 0 < z.index then z.load (z.index - 1) (Nat.sub_one_lt_of_le h z.index_le) else z

/-- Recalls the line behind the recalled one, or the empty line. -/
def down (z : ZipperEditor) : ZipperEditor :=
  if h : z.index + 1 < z.past.length then z.load (z.index + 1) h else fresh z.past

/-- What an editing key does; keys that are not listed do nothing. -/
def press (z : ZipperEditor) : KeyEditor.Key → ZipperEditor
  | .char c => { z with line := z.line.insert c }
  | .backspace => { z with line := z.line.backspace }
  | .delete => { z with line := z.line.delete }
  | .left => { z with line := z.line.left }
  | .right => { z with line := z.line.right }
  | .home => { z with line := z.line.home }
  | .toEnd => { z with line := z.line.toEnd }
  | .up => z.up
  | .down => z.down
  | _ => z

/-- Edits a line: what is handed out, the lines entered until then, and the keys that are left.
    Enter takes the line and keeps it unless it is blank; Ctrl-C, the end of the keys, and Ctrl-D on
    an empty line end the input; a failure of the keyboard is handed on. -/
def read (z : ZipperEditor) : List KeyRead → LineRead × List (List Char) × List KeyRead
  | [] => (.ended, z.past, [])
  | .failed :: keys => (.failed .keyReadFailed, z.past, keys)
  | .key (.char '\n') :: keys =>
    (.line z.line.text,
      if z.line.text.all Text.isBlank then z.past else z.past ++ [z.line.text], keys)
  | .key (.ctrl 'c') :: keys => (.ended, z.past, keys)
  | .key (.ctrl 'd') :: keys =>
    if z.line.text = [] then (.ended, z.past, keys) else z.read keys
  | .key key :: keys => (z.press key).read keys

/-- Edits `n` lines, one after the other. -/
def reads (past : List (List Char)) (keys : List KeyRead) :
    Nat → List (LineRead × List (List Char) × List KeyRead)
  | 0 => []
  | n + 1 =>
    let answer := (fresh past).read keys
    answer :: reads answer.2.1 answer.2.2 n

end ZipperEditor

/-! ## Editing a line -/

namespace LineZipper

/-- The characters before the cursor. -/
@[simp] private theorem take_text (z : LineZipper) :
    z.text.take z.before.length = z.before.reverse := by
  rw [text, List.take_left' (List.length_reverse ..)]

/-- The characters behind the cursor. -/
@[simp] private theorem drop_text (z : LineZipper) : z.text.drop z.before.length = z.behind := by
  rw [text, List.drop_left' (List.length_reverse ..)]

/-- The text is as long as its two parts. -/
theorem length_text (z : LineZipper) : z.text.length = z.before.length + z.behind.length := by
  rw [text, List.length_append, List.length_reverse]

/-- `ofText` puts the cursor behind the text in both. -/
theorem toLine_ofText (text : List Char) : (ofText text).toLine = EditLine.ofText text := by
  simp [toLine, ofText, EditLine.ofText, LineZipper.text]

/-- `insert` puts the character before the cursor in both. -/
theorem toLine_insert (z : LineZipper) (c : Char) :
    (z.insert c).toLine = z.toLine.insert c := by
  simp only [toLine, EditLine.insert, take_text, drop_text]
  simp [insert, text]

/-- `delete` removes the character at the cursor in both. -/
theorem toLine_delete (z : LineZipper) : z.delete.toLine = z.toLine.delete := by
  obtain ⟨before, behind⟩ := z
  -- so the index of the cursor is behind the first part
  have hbefore : before.reverse.length ≤ before.length := (List.length_reverse ..).le
  cases behind with
  | nil => simp [delete, toLine, EditLine.delete, text, List.eraseIdx_of_length_le hbefore]
  | cons c behind =>
    simp [delete, toLine, EditLine.delete, text, List.eraseIdx_append_of_length_le hbefore]

/-- `backspace` removes the character before the cursor in both. -/
theorem toLine_backspace (z : LineZipper) : z.backspace.toLine = z.toLine.backspace := by
  obtain ⟨before, behind⟩ := z
  cases before with
  | nil => rfl
  | cons c before =>
    -- the character before the cursor is the one at the cursor of the line with the cursor moved
    have hdelete := toLine_delete ⟨before, c :: behind⟩
    have hmoved : toLine ⟨before, c :: behind⟩ =
        { toLine ⟨c :: before, behind⟩ with cursor := before.length } := by
      simp [toLine, text]
    rw [hmoved] at hdelete
    exact hdelete

/-- `left` moves past one character in both. -/
theorem toLine_left (z : LineZipper) : z.left.toLine = z.toLine.left := by
  obtain ⟨before, behind⟩ := z
  cases before with
  | nil => rfl
  | cons c before => simp [left, toLine, EditLine.left, text]

/-- `right` moves past one character in both. -/
theorem toLine_right (z : LineZipper) : z.right.toLine = z.toLine.right := by
  obtain ⟨before, behind⟩ := z
  -- at the end both stay, elsewhere both step
  cases behind with
  | nil => simp [right, toLine, EditLine.right, text]
  | cons c behind => simp [right, toLine, EditLine.right, text]

/-- `home` moves to the start in both. -/
theorem toLine_home (z : LineZipper) : z.home.toLine = z.toLine.home := rfl

/-- `toEnd` moves to the end in both. -/
theorem toLine_toEnd (z : LineZipper) : z.toEnd.toLine = z.toLine.toEnd :=
  toLine_ofText z.text

end LineZipper

namespace ZipperEditor

/-- The draft of an editor that shows what the reference does. -/
def draft (z : ZipperEditor) : KeyEditor.Draft := ⟨z.line.toLine, z.index⟩

/-- The line that is recalled is there. -/
private theorem draft_load (z : ZipperEditor) {i : Nat} (h : i < z.past.length)
    (d : KeyEditor.Draft) : (z.load i h).draft = d.recallAt z.past i := by
  rw [KeyEditor.Draft.recallAt, List.getElem?_eq_getElem h]
  simp only [draft, load, LineZipper.toLine_ofText]

/-- `up` recalls the line that `Draft.older` does. -/
private theorem draft_up (z : ZipperEditor) : z.up.draft = z.draft.older z.past := by
  unfold up KeyEditor.Draft.older
  by_cases h : 0 < z.index
  · have hne : z.draft.recalled ≠ 0 := Nat.ne_of_gt h
    rw [dif_pos h, if_neg hne]
    exact z.draft_load _ z.draft
  · have hzero : z.draft.recalled = 0 := Nat.eq_zero_of_not_pos h
    rw [dif_neg h, if_pos hzero]

/-- `down` recalls the line that `Draft.newer` does. -/
private theorem draft_down (z : ZipperEditor) : z.down.draft = z.draft.newer z.past := by
  unfold down KeyEditor.Draft.newer
  by_cases h : z.index + 1 < z.past.length
  · have hlt : z.draft.recalled < z.past.length - 1 := Nat.lt_sub_of_add_lt h
    rw [dif_pos h, if_pos hlt]
    exact z.draft_load h z.draft
  · have hge : ¬ z.draft.recalled < z.past.length - 1 := fun hlt => h (Nat.add_lt_of_lt_sub hlt)
    rw [dif_neg h, if_neg hge]
    rfl

/-- `up` keeps the lines entered before. -/
private theorem past_up (z : ZipperEditor) : z.up.past = z.past := by
  unfold up
  split <;> rfl

/-- `down` keeps the lines entered before. -/
private theorem past_down (z : ZipperEditor) : z.down.past = z.past := by
  unfold down
  split <;> rfl

/-- No editing key changes the lines entered before. -/
private theorem past_press (z : ZipperEditor) (key : KeyEditor.Key) :
    (z.press key).past = z.past := by
  cases key with
  | up => exact z.past_up
  | down => exact z.past_down
  | _ => rfl

/-- What is done to the line is done to that of the draft. -/
private theorem draft_of_toLine_eq {z : ZipperEditor} {line : LineZipper} {l : EditLine}
    (h : line.toLine = l) :
    ({ z with line } : ZipperEditor).draft = { z.draft with line := l } := by
  rw [← h]
  rfl

/-- A key does to the draft what it does to the reference. -/
theorem draft_press (z : ZipperEditor) (key : KeyEditor.Key) :
    (z.press key).draft = z.draft.press z.past key := by
  cases key with
  | char c => exact draft_of_toLine_eq (z.line.toLine_insert c)
  | backspace => exact draft_of_toLine_eq z.line.toLine_backspace
  | delete => exact draft_of_toLine_eq z.line.toLine_delete
  | left => exact draft_of_toLine_eq z.line.toLine_left
  | right => exact draft_of_toLine_eq z.line.toLine_right
  | home => exact draft_of_toLine_eq z.line.toLine_home
  | toEnd => exact draft_of_toLine_eq z.line.toLine_toEnd
  | up => exact z.draft_up
  | down => exact z.draft_down
  | ctrl c => rfl
  | escape => rfl
  | other code => rfl

/-- The draft never stands beyond its text, nor beyond the lines entered before. -/
private theorem draft_le (z : ZipperEditor) :
    z.draft.line.cursor ≤ z.draft.line.chars.length ∧ z.draft.recalled ≤ z.past.length := by
  refine ⟨?_, z.index_le⟩
  have hlength := z.line.length_text
  show z.line.before.length ≤ z.line.text.length
  omega

/-- The editor reads a line as the reference does. -/
theorem read_eq (z : ZipperEditor) (keys : List KeyRead) (e : KeyEditor)
    (hpast : z.past = e.history) :
    let answer := e.edit z.draft keys
    (answer.1, answer.2.history, answer.2.keys) = z.read keys := by
  induction keys generalizing z e with
  | nil => rw [read, hpast]; rfl
  | cons k keys ih =>
    -- a key that edits the line leaves the editor and the reference alike
    have hpress (key : KeyEditor.Key) :
        let answer := (e.redraw z.draft.line).edit (z.draft.press e.history key) keys
        (answer.1, answer.2.history, answer.2.keys) = (z.press key).read keys := by
      have hedit := ih (z.press key) (e.redraw z.draft.line) ((z.past_press key).trans hpast)
      rwa [draft_press, hpast] at hedit
    cases k with
    | failed => rw [read, hpast]; rfl
    | key key =>
      by_cases henter : key = .char '\n'
      · -- a line is blank when nothing is left of it after trimming
        subst henter
        have hblank : (Text.trim z.line.text).isEmpty = z.line.text.all Text.isBlank := by
          rw [Bool.eq_iff_iff, List.isEmpty_iff, Text.trim_eq_nil_iff, List.all_eq_true]
        rw [read, KeyEditor.edit, ← hblank, hpast]
        show (LineRead.line z.line.text, ((e.redraw z.draft.line).enter z.line.text).history, keys)
          = _
        rw [KeyEditor.enter]
        split <;> rfl
      by_cases hc : key = .ctrl 'c'
      · subst hc
        rw [read, hpast]
        rfl
      by_cases hd : key = .ctrl 'd'
      · -- Ctrl-D ends the input on an empty line only, and does nothing on any other
        subst hd
        have hchars : z.draft.line.chars = z.line.text := rfl
        rw [read, KeyEditor.edit, hchars]
        simp only [List.isEmpty_iff]
        split
        · rw [hpast]; rfl
        · exact hpress (.ctrl 'd')
      · rw [KeyEditor.edit, read]
        · exact hpress key
        all_goals assumption

end ZipperEditor

/-! ## The bytes of the text -/

namespace EditLine

/-- The offset of a character is the number of bytes before it. -/
theorem byteOffset_eq (chars : List Char) (i : Nat) :
    byteOffset chars i = (utf8Bytes (String.ofList (chars.take i))).length := by
  rw [utf8Bytes_ofList]
  induction chars generalizing i with
  | nil => simp [byteOffset]
  | cons c chars ih =>
    cases i with
    | zero => simp [byteOffset]
    | succ i =>
      rw [byteOffset, ih, List.take_succ_cons, List.flatMap_cons, List.length_append,
        String.length_utf8EncodeChar]

/-- The bytes of a text, cut at a character. -/
private theorem utf8Bytes_take_drop (chars : List Char) (i : Nat) :
    (utf8Bytes (String.ofList chars)).take (byteOffset chars i) =
        utf8Bytes (String.ofList (chars.take i)) ∧
      (utf8Bytes (String.ofList chars)).drop (byteOffset chars i) =
        utf8Bytes (String.ofList (chars.drop i)) := by
  -- the bytes of the two parts are those of the text
  have hsplit : utf8Bytes (String.ofList chars) =
      utf8Bytes (String.ofList (chars.take i)) ++ utf8Bytes (String.ofList (chars.drop i)) := by
    simp only [utf8Bytes_ofList, ← List.flatMap_append, List.take_append_drop]
  rw [hsplit, byteOffset_eq]
  exact ⟨List.take_left' rfl, List.drop_left' rfl⟩

/-- The offset of a character does not lie inside another one, nor beyond the text. -/
theorem isValid_byteOffset (chars : List Char) (i : Nat) :
    (String.Pos.Raw.mk (byteOffset chars i)).IsValid (String.ofList chars) := by
  rw [String.Pos.Raw.isValid_ofList]
  exact ⟨i, byteOffset_eq chars i⟩

/-- The next offset is one character of bytes further. -/
private theorem byteOffset_succ {chars : List Char} {i : Nat} {c : Char} (h : chars[i]? = some c) :
    byteOffset chars (i + 1) = byteOffset chars i + c.utf8Size := by
  rw [byteOffset_eq, byteOffset_eq, utf8Bytes_ofList, utf8Bytes_ofList, List.take_add_one, h,
    List.flatMap_append, List.length_append]
  simp

/-- Putting a character before the cursor puts its bytes at the offset of the cursor. -/
theorem utf8Bytes_insert (l : EditLine) (c : Char) :
    utf8Bytes (String.ofList (l.insert c).chars) =
      (utf8Bytes (String.ofList l.chars)).take (byteOffset l.chars l.cursor) ++
        utf8Bytes (String.ofList [c]) ++
        (utf8Bytes (String.ofList l.chars)).drop (byteOffset l.chars l.cursor) := by
  obtain ⟨htake, hdrop⟩ := utf8Bytes_take_drop l.chars l.cursor
  rw [htake, hdrop]
  simp only [insert, utf8Bytes_ofList, List.flatMap_append, List.flatMap_cons, List.flatMap_nil,
    List.append_nil, List.append_assoc]

/-- Removing the character at the cursor cuts its bytes out at the offset of the cursor. -/
theorem utf8Bytes_delete (l : EditLine) {c : Char} (h : l.chars[l.cursor]? = some c) :
    utf8Bytes (String.ofList l.delete.chars) =
      (utf8Bytes (String.ofList l.chars)).take (byteOffset l.chars l.cursor) ++
        (utf8Bytes (String.ofList l.chars)).drop (byteOffset l.chars l.cursor + c.utf8Size) := by
  -- what stays are the bytes before the character and those from the next one on
  obtain ⟨htake, -⟩ := utf8Bytes_take_drop l.chars l.cursor
  obtain ⟨-, hdrop⟩ := utf8Bytes_take_drop l.chars (l.cursor + 1)
  rw [htake, ← byteOffset_succ h, hdrop, delete, List.eraseIdx_eq_take_drop_succ]
  simp only [utf8Bytes_ofList, List.flatMap_append]

end EditLine

/-! ## Line after line -/

namespace KeyEditor

/-- Reads `n` lines, one after the other: what is handed out, the lines entered until then, and the
    keys that are left. -/
def reads (e : KeyEditor) : Nat → List (LineRead × List (List Char) × List KeyRead)
  | 0 => []
  | n + 1 =>
    (e.readLine.1, e.readLine.2.history, e.readLine.2.keys) :: e.readLine.2.reads n

/-- The draft after some keys. -/
def draftAfter (history : List (List Char)) (ks : List Key) : Draft :=
  ks.foldl (fun d key => d.press history key) ⟨EditLine.empty, history.length⟩

/-- `reads` is the reference, line after line. -/
private theorem reads_eq (e : KeyEditor) (n : Nat) :
    e.reads n = ZipperEditor.reads e.history e.keys n := by
  induction n generalizing e with
  | zero => rfl
  | succ n ih =>
    -- the first line; the editor behind it stands where the reference does
    have hread : (e.readLine.1, e.readLine.2.history, e.readLine.2.keys) =
        (ZipperEditor.fresh e.history).read e.keys :=
      (ZipperEditor.fresh e.history).read_eq e.keys (e.write (clearLine ++ e.prompt)) rfl
    rw [reads, ZipperEditor.reads, ← hread, ih]

/-- Keys that end neither the line nor the input lead from draft to draft. -/
private theorem exists_edit_eq {ks : List Key}
    (hks : ∀ key ∈ ks, key ≠ .char '\n' ∧ key ≠ .ctrl 'c' ∧ key ≠ .ctrl 'd') (e : KeyEditor)
    (d : Draft) (more : List KeyRead) :
    ∃ e' : KeyEditor, e'.history = e.history ∧ e.edit d (ks.map .key ++ more) =
      e'.edit (ks.foldl (fun d key => d.press e.history key) d) more := by
  induction ks generalizing e d with
  | nil => exact ⟨e, rfl, rfl⟩
  | cons key ks ih =>
    obtain ⟨⟨henter, hc, hd⟩, hks⟩ := List.forall_mem_cons.1 hks
    obtain ⟨e', hhistory, hedit⟩ := ih hks (e.redraw d.line) (d.press e.history key)
    refine ⟨e', hhistory, ?_⟩
    -- the key is none of the three, so `edit` goes on with it
    rw [List.map_cons, List.cons_append, edit]
    · exact hedit
    all_goals assumption

/-- Whatever keys are pressed, the draft shows what the reference does. -/
private theorem exists_zipper_draftAfter (history : List (List Char)) (ks : List Key) :
    ∃ z : ZipperEditor, z.past = history ∧ draftAfter history ks = z.draft := by
  induction ks using List.reverseRecOn with
  | nil => exact ⟨ZipperEditor.fresh history, rfl, rfl⟩
  | append_singleton ks key ih =>
    obtain ⟨z, rfl, hdraft⟩ := ih
    refine ⟨z.press key, z.past_press key, ?_⟩
    rw [draftAfter, List.foldl_concat, z.draft_press, ← hdraft]
    rfl

/-- Line after line, the editor hands out what the reference does, and keeps the same lines.  Keys
    lead it from draft to draft.  Whatever keys are pressed, the cursor of the draft is within its
    text and the recalled line within the lines entered before; and at every place of the cursor a
    program that keeps the text as bytes finds the end of a character, and edits the bytes of that
    place only. -/
theorem reads_as_zipper (e : KeyEditor) :
    (∀ n, e.reads n = ZipperEditor.reads e.history e.keys n) ∧
    ∀ ks : List Key,
      let d := draftAfter e.history ks
      ((∀ key ∈ ks, key ≠ .char '\n' ∧ key ≠ .ctrl 'c' ∧ key ≠ .ctrl 'd') →
        ∀ more, e.keys = ks.map .key ++ more →
          ∃ e' : KeyEditor, e'.history = e.history ∧ e.readLine = e'.edit d more) ∧
      d.line.cursor ≤ d.line.chars.length ∧ d.recalled ≤ e.history.length ∧
      ∀ i ≤ d.line.chars.length,
        let line : EditLine := { d.line with cursor := i }
        let bytes := utf8Bytes (String.ofList line.chars)
        let offset := EditLine.byteOffset line.chars i
        (String.Pos.Raw.mk offset).IsValid (String.ofList line.chars) ∧
        (∀ c, utf8Bytes (String.ofList (line.insert c).chars) =
          bytes.take offset ++ utf8Bytes (String.ofList [c]) ++ bytes.drop offset) ∧
        ∀ c, line.chars[i]? = some c →
          utf8Bytes (String.ofList line.delete.chars) =
            bytes.take offset ++ bytes.drop (offset + c.utf8Size) := by
  refine ⟨e.reads_eq, fun ks => ?_⟩
  obtain ⟨z, hpast, hdraft⟩ := exists_zipper_draftAfter e.history ks
  obtain ⟨hcursor, hrecalled⟩ := z.draft_le
  rw [hpast] at hrecalled
  refine ⟨fun hks more hkeys => ?_, ?_⟩
  · rw [readLine, hkeys]
    exact exists_edit_eq hks (e.write (clearLine ++ e.prompt)) ⟨.empty, e.history.length⟩ more
  rw [hdraft]
  -- no place of the cursor cuts a character
  exact ⟨hcursor, hrecalled, fun i _ => ⟨EditLine.isValid_byteOffset _ i,
    fun c => EditLine.utf8Bytes_insert { z.draft.line with cursor := i } c,
    fun c hc => EditLine.utf8Bytes_delete { z.draft.line with cursor := i } hc⟩⟩

/-- A line is recalled, a character is put in front of its last one, and the line is entered. -/
example :
    let keys : List Key := [.up, .left, .char '+', .char '\n']
    (KeyEditor.mk "> " [['1', '2']] (keys.map .key) 1 "").reads 1 =
      [(.line ['1', '+', '2'], [['1', '2'], ['1', '+', '2']], [])] := by
  rfl

end KeyEditor

end DeskCalc
