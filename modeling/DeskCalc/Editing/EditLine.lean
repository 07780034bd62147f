/-! # Editable lines

A line of text with a cursor between two of its characters.  Both editors, the one on a terminal
line and the entry field of the full-screen calculator, edit such a line. -/

namespace DeskCalc

/-- A text and the number of characters before the cursor. -/
structure EditLine where
  chars : List Char
  cursor : Nat
deriving DecidableEq

namespace EditLine

/-- The empty line. -/
def empty : EditLine := ⟨[], 0⟩

/-- A text with the cursor behind it. -/
def ofText (chars : List Char) : EditLine := ⟨chars, chars.length⟩

/-- The characters before the cursor. -/
def before (l : EditLine) : List Char := l.chars.take l.cursor

/-- Puts `c` before the cursor. -/
def insert (l : EditLine) (c : Char) : EditLine :=
  ⟨l.chars.take l.cursor ++ c :: l.chars.drop l.cursor, l.cursor + 1⟩

/-- Removes the character at the cursor, if there is one. -/
def delete (l : EditLine) : EditLine :=
  { l with chars := l.chars.eraseIdx l.cursor }

/-- Removes the character before the cursor, if there is one. -/
def backspace (l : EditLine) : EditLine :=
  if l.cursor = 0 then l else delete { l with cursor := l.cursor - 1 }

/-- Moves one character to the left. -/
def left (l : EditLine) : EditLine := { l with cursor := l.cursor - 1 }

/-- Moves one character to the right. -/
def right (l : EditLine) : EditLine := { l with cursor := min (l.cursor + 1) l.chars.length }

/-- Moves to the start. -/
def home (l : EditLine) : EditLine := { l with cursor := 0 }

/-- Moves to the end. -/
def toEnd (l : EditLine) : EditLine := { l with cursor := l.chars.length }

/-- The number of UTF-8 bytes before the character with index `i`. -/
def byteOffset : List Char → Nat → Nat
  | [], _ => 0
  | _, 0 => 0
  | c :: chars, i + 1 => c.utf8Size + byteOffset chars i

end EditLine

end DeskCalc
