import DeskCalc.Editing.EditLine

/-! # Entry field

An editable line seen through a window: only the characters from `scroll` on are shown.  The cursor
can also move by words, which are runs of characters other than the space. -/

namespace DeskCalc

/-- An editable line and the index of the first character shown. -/
structure EntryField where
  line : EditLine
  scroll : Nat
deriving DecidableEq

namespace EntryField

/-- The empty field. -/
def empty : EntryField := ⟨EditLine.empty, 0⟩

/-- The text of the field. -/
def chars (f : EntryField) : List Char := f.line.chars

/-- The number of characters before the cursor. -/
def cursor (f : EntryField) : Nat := f.line.cursor

/-- Puts `c` before the cursor. -/
def insert (f : EntryField) (c : Char) : EntryField := { f with line := f.line.insert c }

/-- Removes the character at the cursor. -/
def delete (f : EntryField) : EntryField := { f with line := f.line.delete }

/-- Removes the character before the cursor. -/
def backspace (f : EntryField) : EntryField := { f with line := f.line.backspace }

/-- Moves one character to the left. -/
def left (f : EntryField) : EntryField := { f with line := f.line.left }

/-- Moves one character to the right. -/
def right (f : EntryField) : EntryField := { f with line := f.line.right }

/-- Moves to the start, which becomes visible at once. -/
def home (f : EntryField) : EntryField := ⟨f.line.home, 0⟩

/-- Moves to the end. -/
def toEnd (f : EntryField) : EntryField := { f with line := f.line.toEnd }

/-- Whether `c` is the space that separates words. -/
def isSpace (c : Char) : Bool := c == ' '

/-- The length of `cs` without the spaces at its end and the word before them. -/
def lengthBeforeWord (cs : List Char) : Nat :=
  ((cs.reverse.dropWhile isSpace).dropWhile (!isSpace ·)).length

/-- The length of the word at the front of `cs` and the spaces behind it. -/
def lengthPastWord (cs : List Char) : Nat :=
  cs.length - ((cs.dropWhile (!isSpace ·)).dropWhile isSpace).length

/-- Moves to the start of the word before the cursor. -/
def wordLeft (f : EntryField) : EntryField :=
  { f with line := { f.line with cursor := lengthBeforeWord (f.chars.take f.cursor) } }

/-- Moves past the word at the cursor and the spaces behind it. -/
def wordRight (f : EntryField) : EntryField :=
  let start := min f.cursor f.chars.length
  { f with line := { f.line with cursor := start + lengthPastWord (f.chars.drop start) } }

/-- Replaces the text; the cursor goes behind it. -/
def replace (_ : EntryField) (chars : List Char) : EntryField := ⟨EditLine.ofText chars, 0⟩

/-- Empties the field. -/
def clear (f : EntryField) : EntryField := f.replace []

/-- Scrolls as little as needed to have the cursor in a window of `width` characters. -/
def fitScroll (f : EntryField) (width : Nat) : EntryField :=
  if f.cursor < f.scroll then { f with scroll := f.cursor }
  else if 0 < width ∧ f.scroll + width ≤ f.cursor then { f with scroll := f.cursor + 1 - width }
  else f

end EntryField

end DeskCalc
