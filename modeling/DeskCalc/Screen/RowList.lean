import DeskCalc.Screen.Canvas

/-! # Row lists

A list of rows seen through a window that starts at an offset and moves just as far as needed to
show the selected row. -/

namespace DeskCalc.Screen

/-- The index of the first row shown by a window of `height` rows over `count` rows: the offset, at
most the last row, unless the selected row lies outside the window. -/
def windowStart (count height offset selected : Nat) : Nat :=
  let offset := min offset (count - 1)
  let selected := min selected (count - 1)
  -- the offset gives way to the selected row, by as little as it takes
  if selected < offset then selected
  else if offset + height ≤ selected then selected + 1 - height
  else offset

/-- The rows shown, and the index of the first of them. -/
def visibleRows (rows : List Row) (height offset selected : Nat) : Nat × List Row :=
  let start := windowStart rows.length height offset selected
  (start, (rows.drop start).take height)

/-- Draws the rows shown.  The whole width of the selected row, if there is one, is painted with the
highlight style. -/
def drawRowList (c : Canvas) (a : Area) (rows : List Row) (offset : Nat) (selected : Option Nat)
    (highlight : Style) : Canvas :=
  if a.width = 0 ∨ a.height = 0 then c
  else
    let (start, shown) := visibleRows rows a.height offset (selected.getD 0)
    (shown.foldl (fun (c, i) row =>
      let y := a.y + (i - start)
      let c := c.drawRow a.x y a.width row
      (if selected = some i then c.paint ⟨a.x, y, a.width, 1⟩ highlight else c, i + 1))
      (c, start)).1

end DeskCalc.Screen
