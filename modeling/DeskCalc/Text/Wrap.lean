import DeskCalc.Text.Blank
import DeskCalc.Text.Width

/-! # Line wrapping

The words of a text are packed greedily into lines of a given width, one space between neighbours.
A word that is wider than a line is first cut into pieces that fit.  How wide a character and a text
are is up to a measure, which need not be the sum over the characters. -/

namespace DeskCalc.Text

/-- How wide characters and texts are. -/
structure Measure where
  ofChar : Char → Nat
  ofText : List Char → Nat

namespace Measure

/-- The width on a screen. -/
def display : Measure := ⟨charWidth, width⟩

/-- How wide characters are together. -/
def total (ofChar : Char → Nat) (chars : List Char) : Nat :=
  -- the zero is named, since Mathlib has a second instance of `Zero Nat`
  @List.sum Nat _ Zero.ofOfNat0 (chars.map ofChar)

/-- No characters are no width. -/
@[simp] theorem total_nil (ofChar : Char → Nat) : total ofChar [] = 0 := rfl

/-- The width of a character is added to that of those behind it. -/
@[simp] theorem total_cons (ofChar : Char → Nat) (c : Char) (cs : List Char) :
    total ofChar (c :: cs) = ofChar c + total ofChar cs :=
  List.sum_cons

/-- Widths add up. -/
@[simp] theorem total_append (ofChar : Char → Nat) (cs ds : List Char) :
    total ofChar (cs ++ ds) = total ofChar cs + total ofChar ds := by
  simp only [total, List.map_append, List.sum_append]

end Measure

/-- Cuts `word` so that the characters of a piece are together no wider than `limit`, except for a
single character that is; each piece takes as many characters as fit.  `piece` is the piece being
filled, and it is not empty. -/
def cutFrom (m : Measure) (limit : Nat) (piece : List Char) : List Char → List (List Char)
  | [] => [piece]
  | c :: rest =>
    -- a piece holds one character at least, so a single one may be too wide
    if limit < Measure.total m.ofChar piece + m.ofChar c then piece :: cutFrom m limit [c] rest
    else cutFrom m limit (piece ++ [c]) rest

/-- Cuts a word into pieces no wider than `limit`. -/
def cutWord (m : Measure) (limit : Nat) : List Char → List (List Char)
  | [] => [[]]
  | c :: rest => cutFrom m limit [c] rest

/-- Packs pieces into lines.  `line` is the line being filled, empty only at the start. -/
def pack (m : Measure) (limit : Nat) (line : List Char) : List (List Char) → List (List Char)
  | [] => if line.isEmpty then [] else [line]
  | piece :: rest =>
    if line.isEmpty then pack m limit piece rest
    else if limit < m.ofText line + 1 + m.ofText piece then line :: pack m limit piece rest
    else pack m limit (line ++ ' ' :: piece) rest

/-- Wraps a text into lines no wider than `limit`.  Without any room there is one empty line. -/
def wrap (m : Measure) (limit : Nat) (text : List Char) : List (List Char) :=
  if limit = 0 then [[]] else pack m limit [] ((words text).flatMap (cutWord m limit))

end DeskCalc.Text
