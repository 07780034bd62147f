/-! # Line cursor

The line being read, split at the reading position, with one slot of pushback: the character read
last can be given back once. -/

namespace DeskCalc

/-- A line split at the reading position. -/
structure LineCursor where
  /-- The characters already read, the latest first. -/
  consumed : List Char
  /-- The characters still to be read. -/
  rest : List Char
  /-- Whether the last character read can be given back. -/
  canUnread : Bool
deriving DecidableEq

/-- Misuse of the pushback slot. -/
inductive CursorError where
  | nothingToUnread
deriving DecidableEq

/-- The misuse in words. -/
def CursorError.message : CursorError → String
  | nothingToUnread => "no character available to unread"

namespace LineCursor

/-- The cursor before any line. -/
def empty : LineCursor := ⟨[], [], false⟩

/-- The cursor at the start of `line`, to which the end of line is added. -/
def load (line : List Char) : LineCursor := ⟨[], line ++ ['\n'], false⟩

/-- Whether all characters have been read. -/
def isExhausted (c : LineCursor) : Bool := c.rest.isEmpty

/-- The whole line, its end included. -/
def line (c : LineCursor) : List Char := c.consumed.reverse ++ c.rest

/-- The number of characters already read. -/
def position (c : LineCursor) : Nat := c.consumed.length

/-- Reads a character.  At the end nothing is read and the pushback slot stays as it is. -/
def advance (c : LineCursor) : Option Char × LineCursor :=
  match c.rest with
  | [] => (none, c)
  | a :: rest => (some a, ⟨a :: c.consumed, rest, true⟩)

/-- Gives the last character back. -/
def unread (c : LineCursor) : Except CursorError LineCursor :=
  match c.canUnread, c.consumed with
  | true, a :: consumed => .ok ⟨consumed, a :: c.rest, false⟩
  | _, _ => .error .nothingToUnread

/-- Skips to the end of the buffer. -/
def flush (c : LineCursor) : LineCursor := ⟨c.rest.reverse ++ c.consumed, [], false⟩

/-- Moves `n` characters on; `canUnread` says whether the last of them can be given back. -/
def forward (c : LineCursor) (n : Nat) (canUnread : Bool) : LineCursor :=
  ⟨(c.rest.take n).reverse ++ c.consumed, c.rest.drop n, canUnread⟩

/-- The characters up to and including the first end of line. -/
def lineLength (c : LineCursor) : Nat :=
  (c.rest.takeWhile (· != '\n')).length + 1

end LineCursor

end DeskCalc
