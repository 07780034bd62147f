import DeskCalc.Rejection
import DeskCalc.Text.Width

/-! # Diagnostics

A refused line is reported with the reason, the line itself, and a caret under the place where
reading stopped. -/

namespace DeskCalc

/-- The cause of a refusal, pinned to a place. -/
structure Diagnostic where
  rejection : Rejection
  /-- The raw line, its end included. -/
  line : List Char
  /-- The place of the character read last, counted in characters from the start of the line. -/
  column : Nat
deriving DecidableEq

namespace Diagnostic

/-- The reason in words. -/
def message (d : Diagnostic) : String := d.rejection.message

/-- Whether `c` ends a line or belongs to its end. -/
def isLineEnd (c : Char) : Bool := c == '\n' || c == '\r'

/-- The line without line feeds and carriage returns at its end. -/
def echoLine (d : Diagnostic) : List Char :=
  (d.line.reverse.dropWhile isLineEnd).reverse

/-- A caret with one space for each character before it. -/
def caretLine (d : Diagnostic) : List Char :=
  List.replicate d.column ' ' ++ ['^']

/-- Three lines: the reason, the line, the caret. -/
def render (d : Diagnostic) : String :=
  "error: " ++ d.message ++ "\n" ++ String.ofList d.echoLine ++ "\n"
    ++ String.ofList d.caretLine ++ "\n"

/-- The columns to leave free before a caret on a screen, where a character can take two columns or
none.  A place behind the echoed line counts one column for each missing character. -/
def caretPadding (d : Diagnostic) : Nat :=
  let before := d.echoLine.take d.column
  Text.width before + (d.column - before.length)

end Diagnostic

end DeskCalc
