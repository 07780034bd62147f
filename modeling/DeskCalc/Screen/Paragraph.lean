import DeskCalc.Screen.Canvas
import DeskCalc.Screen.Flow

/-! # Paragraphs

Text in an area: cut at the right edge row by row, or broken into lines at the left edge or in the
middle. -/

namespace DeskCalc.Screen

/-- The glyphs that fit into `room` columns: one wider than the whole area is left out, and the
first one that does not fit ends the line. -/
def fitting (areaWidth room : Nat) : List Glyph → List Glyph
  | [] => []
  | g :: rest =>
    if areaWidth < g.width then fitting areaWidth room rest
    else if room < g.width then []
    else g :: fitting areaWidth (room - g.width) rest

/-- Puts glyphs into the cells of row `y` from column `x` on.  Those without width are dropped. -/
def putGlyphs (c : Canvas) (x y : Nat) : List Glyph → Canvas
  | [] => c
  | g :: rest =>
    if g.width = 0 then putGlyphs c x y rest
    else putGlyphs (c.put x y g.text g.style) (x + g.width) y rest

/-- Draws lines from the top of an area, each from the column that `offset` gives for its width. -/
def drawLines (c : Canvas) (a : Area) (offset : Nat → Nat) (lines : List (List Glyph)) : Canvas :=
  ((lines.take a.height).foldl (fun (c, y) line =>
    (putGlyphs c (a.x + offset (glyphsWidth line)) y line, y + 1)) (c, a.y)).1

/-- Draws rows from the top of an area, each cut at the right edge. -/
def drawRows (c : Canvas) (a : Area) (rows : List Row) : Canvas :=
  drawLines c a (fun _ => 0) (rows.map fun row => fitting a.width a.width (glyphs row))

/-- Draws rows broken at the right edge of an area, leaving out as many lines as it is scrolled
down. -/
def drawFlow (c : Canvas) (a : Area) (scroll : Nat) (rows : List Row) : Canvas :=
  drawLines c a (fun _ => 0) ((rows.flatMap (flow false a.width)).drop scroll)

/-- Draws rows broken and centered in an area, without blanks at their start. -/
def drawCentered (c : Canvas) (a : Area) (rows : List Row) : Canvas :=
  drawLines c a (fun width => a.width / 2 - width / 2) (rows.flatMap (flow true a.width))

end DeskCalc.Screen
