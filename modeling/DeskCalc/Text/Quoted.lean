import DeskCalc.Text.Extend
import DeskCalc.Text.Printable

/-! # Quoted characters

A character inside a message stands between single quotes.  The characters that would be unreadable
there are written as escapes. -/

namespace DeskCalc.Text

/-- The digits of `n` in base sixteen, in lower case and without leading zeros. -/
def hexDigits (n : Nat) : String :=
  String.ofList (Nat.toDigits 16 n)

/-- The escape by code point: a backslash, `u` and the hexadecimal digits in braces. -/
def codeEscape (c : Char) : String :=
  "\\u\x7b" ++ hexDigits c.toNat ++ "\x7d"

/-- Whether `c` is a mark that would be drawn on the quote before it.  The two half-width voicing
marks of Katakana extend the letter before them, but they have a place of their own. -/
def isMark (c : Char) : Bool :=
  isExtend c && !inRanges c.toNat [(0xFF9E, 0xFF9F)]

/-- How `c` is written between single quotes: the usual short escapes, the escape by code point for
marks and for characters without a picture, and the character itself otherwise. -/
def escapeChar (c : Char) : String :=
  match c with
  | '\x00' => "\\0"
  | '\t' => "\\t"
  | '\r' => "\\r"
  | '\n' => "\\n"
  | '\'' => "\\'"
  | '\\' => "\\\\"
  | c => if isMark c || !isPrintable c then codeEscape c else c.toString

/-- The character `c` between single quotes, escaped where needed. -/
def quoteChar (c : Char) : String :=
  "'" ++ escapeChar c ++ "'"

end DeskCalc.Text
