import DeskCalc.Text.CodeRanges

/-! # Blanks

The `White_Space` property of the Unicode standard: the space, the tab and the ends of lines, the
next-line and no-break spaces, and the spaces of typography.  Texts are trimmed of them, and words
are separated by them. -/

namespace DeskCalc.Text

/-- The code points with the property `White_Space`. -/
def blankRanges : List (Nat × Nat) :=
  [(0x9, 0xD), (0x20, 0x20), (0x85, 0x85), (0xA0, 0xA0), (0x1680, 0x1680), (0x2000, 0x200A),
   (0x2028, 0x2029), (0x202F, 0x202F), (0x205F, 0x205F), (0x3000, 0x3000)]

/-- Whether `c` is white space. -/
def isBlank (c : Char) : Bool :=
  inRanges c.toNat blankRanges

/-- A text without the blanks at its two ends. -/
def trim (text : List Char) : List Char :=
  ((text.dropWhile isBlank).reverse.dropWhile isBlank).reverse

/-- The words of a text: its longest pieces without blanks. -/
def words : List Char → List (List Char)
  | [] => []
  | c :: cs =>
    if isBlank c then words cs
    else
      match cs, words cs with
      | next :: _, word :: rest => if isBlank next then [c] :: word :: rest else (c :: word) :: rest
      | _, rest => [c] :: rest

end DeskCalc.Text
