import DeskCalc.Screen.Style
import DeskCalc.Text.Cluster
import DeskCalc.Text.Width

/-! # Canvas

A screen of cells, each with a cluster of characters and a style.  A wide character fills its own
cell and covers the one behind it. -/

namespace DeskCalc.Screen

/-- A rectangle of cells. -/
structure Area where
  x : Nat
  y : Nat
  width : Nat
  height : Nat
deriving DecidableEq

/-- The area without its outermost cells. -/
def Area.inner (a : Area) : Area :=
  ⟨a.x + 1, a.y + 1, a.width - 2, a.height - 2⟩

/-- One cell of a screen. -/
structure Cell where
  symbol : List Char
  style : Style
deriving DecidableEq

/-- An empty cell. -/
def Cell.blank : Cell := ⟨[' '], Style.plain⟩

/-- A screen, its cells row by row. -/
structure Canvas where
  width : Nat
  height : Nat
  cells : Array Cell

namespace Canvas

/-- An empty screen. -/
def blank (width height : Nat) : Canvas :=
  ⟨width, height, Array.replicate (width * height) Cell.blank⟩

/-- The whole screen. -/
def area (c : Canvas) : Area := ⟨0, 0, c.width, c.height⟩

/-- Changes the cell at column `x` of row `y`, if there is one. -/
def modify (c : Canvas) (x y : Nat) (f : Cell → Cell) : Canvas :=
  if x < c.width ∧ y < c.height then { c with cells := c.cells.modify (y * c.width + x) f } else c

/-- Puts a symbol into a cell, its style over the style of the cell. -/
def put (c : Canvas) (x y : Nat) (symbol : List Char) (style : Style) : Canvas :=
  c.modify x y fun cell => ⟨symbol, style.onTopOf cell.style⟩

/-- Lays a style over all cells of an area. -/
def paint (c : Canvas) (a : Area) (style : Style) : Canvas :=
  (List.range a.height).foldl (fun c j =>
    (List.range a.width).foldl (fun c i =>
      c.modify (a.x + i) (a.y + j) fun cell => { cell with style := style.onTopOf cell.style }) c) c

/-- Empties `n` cells of row `y` from column `x` on. -/
def clearCells (c : Canvas) (x y n : Nat) : Canvas :=
  (List.range n).foldl (fun c i => c.modify (x + i) y fun _ => Cell.blank) c

/-- Draws clusters from column `x` on as long as they end before column `stop`, and says where the
next one would go.  Clusters without width are dropped. -/
def drawClusters (c : Canvas) (x y stop : Nat) (style : Style) : List (List Char) → Canvas × Nat
  | [] => (c, x)
  | cluster :: rest =>
    let width := Text.width cluster
    if width = 0 then drawClusters c x y stop style rest
    else if stop < x + width then (c, x)
    else
      -- the cells that a wide cluster covers are emptied
      drawClusters ((c.put x y cluster style).clearCells (x + 1) y (width - 1)) (x + width) y stop
        style rest

/-- Draws a row of spans from column `x` on within `limit` columns. -/
def drawRow (c : Canvas) (x y limit : Nat) (row : Row) : Canvas :=
  let stop := min (x + limit) c.width
  (row.foldl (fun (c, x) span =>
    drawClusters c x y stop span.style (Text.clusters span.text)) (c, x)).1

/-- The cell at column `x` of row `y`. -/
def cell (c : Canvas) (x y : Nat) : Cell :=
  c.cells.getD (y * c.width + x) Cell.blank

end Canvas

/-- A drawn screen and the place of the terminal cursor, if it is shown. -/
structure Frame where
  canvas : Canvas
  cursor : Option (Nat × Nat)

end DeskCalc.Screen
