import DeskCalc.Editing.EditLine
import DeskCalc.Input.LineSource
import DeskCalc.Text.Blank
import DeskCalc.Text.Width

/-! # Line editor on a terminal

A line is typed key by key, edited in place, and may be recalled from the lines entered before.
After every key the editor redraws its line: it goes to the first column, clears the line, writes
the prompt and the text, and puts the cursor where it belongs. -/

namespace DeskCalc

/-- A key of the terminal. -/
inductive KeyEditor.Key where
  /-- A character; the Enter key is the line feed. -/
  | char (c : Char)
  /-- A character typed while Control is held. -/
  | ctrl (c : Char)
  | backspace
  | delete
  | left
  | right
  | up
  | down
  | home
  | toEnd
  | escape
  /-- A key that the editor has no use for, such as a function key or a letter with Alt; the codes
  tell these keys apart. -/
  | other (code : Nat)
deriving DecidableEq

/-- What reading the keyboard yields. -/
inductive KeyRead where
  | key (key : KeyEditor.Key)
  | failed
deriving DecidableEq

/-- A line editor with the keys that are still to come and all that it has written. -/
structure KeyEditor where
  prompt : String
  /-- The lines entered so far, the oldest first; blank lines are not kept. -/
  history : List (List Char)
  keys : List KeyRead
  /-- The row of the terminal on which lines are edited. -/
  row : Nat
  written : String

namespace KeyEditor

/-- The escape sequence that clears the current line. -/
def clearLine : String := "\x1b[2K"

/-- The escape sequence that moves the cursor. -/
def goto (column row : Nat) : String :=
  "\x1b[" ++ toString row ++ ";" ++ toString column ++ "H"

/-- A line being edited, and the index of the recalled line in the history, which is the length of
the history when none is recalled. -/
structure Draft where
  line : EditLine
  recalled : Nat
deriving DecidableEq

namespace Draft

/-- Recalls the line with index `i`. -/
def recallAt (d : Draft) (history : List (List Char)) (i : Nat) : Draft :=
  match history[i]? with
  | some chars => ⟨EditLine.ofText chars, i⟩
  | none => d

/-- Recalls the line before the recalled one. -/
def older (d : Draft) (history : List (List Char)) : Draft :=
  if d.recalled = 0 then d else d.recallAt history (d.recalled - 1)

/-- Recalls the line after the recalled one; behind the last one is the empty line. -/
def newer (d : Draft) (history : List (List Char)) : Draft :=
  if d.recalled < history.length - 1 then d.recallAt history (d.recalled + 1)
  else ⟨EditLine.empty, history.length⟩

/-- What an editing key does.  Control characters, the escape key and the keys without a use do
nothing. -/
def press (d : Draft) (history : List (List Char)) : Key → Draft
  | .char c => { d with line := d.line.insert c }
  | .backspace => { d with line := d.line.backspace }
  | .delete => { d with line := d.line.delete }
  | .left => { d with line := d.line.left }
  | .right => { d with line := d.line.right }
  | .home => { d with line := d.line.home }
  | .toEnd => { d with line := d.line.toEnd }
  | .up => d.older history
  | .down => d.newer history
  | .ctrl _ => d
  | .escape => d
  | .other _ => d

end Draft

/-- The editor after writing a text. -/
def write (e : KeyEditor) (text : String) : KeyEditor :=
  { e with written := e.written ++ text }

/-- The column of the terminal cursor, counted from one.  Terminals count columns in sixteen
bits. -/
def column (e : KeyEditor) (line : EditLine) : Nat :=
  (1 + Text.width e.prompt.toList + Text.width line.before) % 65536

/-- Redraws the line. -/
def redraw (e : KeyEditor) (line : EditLine) : KeyEditor :=
  e.write (goto 1 e.row ++ clearLine ++ e.prompt ++ String.ofList line.chars
    ++ goto (e.column line) e.row)

/-- Leaves the line: the terminal goes on at the start of the next one. -/
def leave (e : KeyEditor) : KeyEditor := e.write "\r\n"

/-- Enters a line: it becomes part of the history unless it is blank. -/
def enter (e : KeyEditor) (chars : List Char) : KeyEditor :=
  if (Text.trim chars).isEmpty then e.leave
  else { e.leave with history := e.history ++ [chars] }

/-- Edits a line with the keys to come.  Enter takes the line; Ctrl-C, the end of the keys, and
Ctrl-D on an empty line end the input. -/
def edit (e : KeyEditor) (draft : Draft) : List KeyRead → LineRead × KeyEditor
  | [] => (.ended, { (e.redraw draft.line).leave with keys := [] })
  | .failed :: keys => (.failed .keyReadFailed, { e.redraw draft.line with keys })
  | .key key :: keys =>
    let drawn := e.redraw draft.line
    match key with
    | .char '\n' => (.line draft.line.chars, { drawn.enter draft.line.chars with keys })
    | .ctrl 'c' => (.ended, { drawn.leave with keys })
    | .ctrl 'd' =>
      -- on a line with text it is a key without a use
      if draft.line.chars.isEmpty then (.ended, { drawn.leave with keys })
      else edit drawn (draft.press e.history key) keys
    | _ => edit drawn (draft.press e.history key) keys

/-- Reads a line from the keyboard. -/
def readLine (e : KeyEditor) : LineRead × KeyEditor :=
  edit (e.write (clearLine ++ e.prompt)) ⟨EditLine.empty, e.history.length⟩ e.keys

/-- A line that is entered uses up the key that ends it at least. -/
theorem length_edit_lt (keys : List KeyRead) (e e' : KeyEditor) (draft : Draft) (text : List Char)
    (h : e.edit draft keys = (.line text, e')) : e'.keys.length < keys.length := by
  induction keys generalizing e draft with
  | nil => simp [edit] at h
  | cons k keys ih =>
    cases k with
    | failed => simp [edit] at h
    | key key =>
      rw [edit.eq_def] at h
      simp only at h
      -- Enter, Ctrl-C, Ctrl-D and every other key
      split at h
      · obtain ⟨_, rfl⟩ := Prod.mk.inj h
        simp
      · simp at h
      · split at h
        · simp at h
        · exact Nat.lt_succ_of_lt (ih _ _ h)
      · exact Nat.lt_succ_of_lt (ih _ _ h)

instance : FiniteSource KeyEditor where
  readLine := readLine
  remaining e := e.keys.length
  remaining_lt e e' text h := length_edit_lt e.keys _ e' _ text h

end KeyEditor

end DeskCalc
