import DeskCalc.Screen.Style
import DeskCalc.Text.Blank
import DeskCalc.Text.Cluster
import DeskCalc.Text.Width

/-! # Flowing text

A row of styled text that is longer than its area is broken into lines, at blanks where that is
possible and inside a word that is wider than a line.  The blanks that fill a line to its end and
one more after them vanish in the break.  Blanks at the start of a line are kept or trimmed. -/

namespace DeskCalc.Screen

/-- A cluster of characters in a style. -/
structure Glyph where
  text : List Char
  style : Style
deriving DecidableEq

namespace Glyph

/-- The columns that a glyph takes. -/
def width (g : Glyph) : Nat := Text.width g.text

/-- Whether lines can be broken at the glyph.  A no-break space on its own keeps its neighbours
together. -/
def isBlank (g : Glyph) : Bool :=
  g.text.all Text.isBlank && g.text != ['\u00a0']

end Glyph

/-- The glyphs of a row.  Line feeds are left out. -/
def glyphs (row : Row) : List Glyph :=
  row.flatMap fun span =>
    ((Text.clusters span.text).filter (· != ['\n'])).map fun cluster => ⟨cluster, span.style⟩

/-- The columns that glyphs take together. -/
def glyphsWidth (gs : List Glyph) : Nat :=
  -- the zero is named, since Mathlib has a second instance of `Zero Nat`
  @List.sum Nat _ Zero.ofOfNat0 (gs.map Glyph.width)

/-- Without glyphs there are no columns. -/
theorem glyphsWidth_nil : glyphsWidth [] = 0 := rfl

/-- The first glyph adds its columns to those of the others. -/
theorem glyphsWidth_cons (g : Glyph) (gs : List Glyph) :
    glyphsWidth (g :: gs) = g.width + glyphsWidth gs :=
  List.sum_cons

/-- A text being broken into lines. -/
structure Flow where
  /-- The lines that are full. -/
  full : List (List Glyph)
  line : List Glyph
  /-- The blanks between the line and the word. -/
  blanks : List Glyph
  word : List Glyph
  /-- Whether the last glyph belongs to a word. -/
  inWord : Bool

/-- Drops blanks as long as they fit into `room` columns, and the first one that does not; says
whether all of them fitted. -/
def dropBlanks (room : Nat) : List Glyph → List Glyph × Bool
  | [] => ([], true)
  | g :: rest => if room < g.width then (rest, false) else dropBlanks (room - g.width) rest

namespace Flow

/-- The start of a text. -/
def start : Flow := ⟨[], [], [], [], false⟩

/-- Whether a line that holds nothing yet has to take the word before a glyph of `n` columns, which
would not fit behind it. -/
def overflows (f : Flow) (trim : Bool) (limit n : Nat) : Bool :=
  f.line.isEmpty &&
    if trim then limit < glyphsWidth f.word + n || limit < glyphsWidth f.blanks + n
    else limit < glyphsWidth f.word + glyphsWidth f.blanks + n

/-- Moves the word to the line, behind its blanks unless they are trimmed. -/
def takeWord (f : Flow) (trim : Bool) : Flow :=
  let line := if trim && f.line.isEmpty then f.word else f.line ++ f.blanks ++ f.word
  { f with line, blanks := [], word := [] }

/-- Whether the line is full, or would be with the word that is followed by a glyph of `n`
columns. -/
def isFull (f : Flow) (limit n : Nat) : Bool :=
  limit ≤ glyphsWidth f.line ||
    (limit ≤ glyphsWidth f.line + glyphsWidth f.blanks + glyphsWidth f.word && 0 < n)

/-- Puts a glyph behind the blanks or the word. -/
def add (f : Flow) (g : Glyph) : Flow :=
  if g.isBlank then { f with blanks := f.blanks ++ [g], inWord := false }
  else { f with word := f.word ++ [g], inWord := true }

/-- Takes in one glyph.  A glyph wider than a whole line is left out. -/
def push (trim : Bool) (limit : Nat) (f : Flow) (g : Glyph) : Flow :=
  if limit < g.width then f
  else
    let ends := (f.inWord && g.isBlank) || f.overflows trim limit g.width
    let f := if ends then f.takeWord trim else f
    if f.isFull limit g.width then
      let (blanks, exhausted) := dropBlanks (limit - glyphsWidth f.line) f.blanks
      let f := { f with full := f.full ++ [f.line], line := [], blanks }
      -- one blank more vanishes in the break
      if g.isBlank && exhausted then f else f.add g
    else f.add g

/-- The lines of the text; there is at least one. -/
def finish (f : Flow) (trim : Bool) : List (List Glyph) :=
  let blankLine := f.line.isEmpty && f.word.isEmpty && !f.blanks.isEmpty
  let line := if blankLine then [] else (f.takeWord trim).line
  let full := if blankLine then f.full ++ [[]] else f.full
  let lines := if line.isEmpty then full else full ++ [line]
  if lines.isEmpty then [[]] else lines

end Flow

/-- Breaks a row into lines of at most `limit` columns. -/
def flow (trim : Bool) (limit : Nat) (row : Row) : List (List Glyph) :=
  if limit = 0 then [] else ((glyphs row).foldl (Flow.push trim limit) Flow.start).finish trim

end DeskCalc.Screen
