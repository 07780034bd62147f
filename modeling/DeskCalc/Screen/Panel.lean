import DeskCalc.Screen.Canvas

/-! # Panels

A panel is a bordered area with a title in the middle of its upper border. -/

namespace DeskCalc.Screen

/-- The characters of a border. -/
structure BorderSet where
  topLeft : Char
  topRight : Char
  bottomLeft : Char
  bottomRight : Char
  horizontal : Char
  vertical : Char
deriving DecidableEq

/-- A border of single lines. -/
def BorderSet.single : BorderSet := ⟨'┌', '┐', '└', '┘', '─', '│'⟩

/-- A border of double lines. -/
def BorderSet.double : BorderSet := ⟨'╔', '╗', '╚', '╝', '═', '║'⟩

/-- What a panel looks like. -/
structure Panel where
  title : String
  border : BorderSet
  borderStyle : Style
deriving DecidableEq

namespace Panel

/-- A panel of the main screen. -/
def titled (title : String) : Panel := ⟨title, .single, Style.color .darkGray⟩

/-- Draws the border character of each border cell, corners last. -/
def drawBorder (p : Panel) (c : Canvas) (a : Area) : Canvas :=
  let right := a.x + a.width - 1
  let bottom := a.y + a.height - 1
  let put (x y : Nat) (symbol : Char) (c : Canvas) := c.put x y [symbol] p.borderStyle
  let c := (List.range a.height).foldl (fun c j =>
    put right (a.y + j) p.border.vertical (put a.x (a.y + j) p.border.vertical c)) c
  let c := (List.range a.width).foldl (fun c i =>
    put (a.x + i) bottom p.border.horizontal (put (a.x + i) a.y p.border.horizontal c)) c
  put a.x a.y p.border.topLeft (put a.x bottom p.border.bottomLeft
    (put right a.y p.border.topRight (put right bottom p.border.bottomRight c)))

/-- Draws the panel; its inner area is left as it is. -/
def draw (p : Panel) (c : Canvas) (a : Area) : Canvas :=
  if a.width = 0 ∨ a.height = 0 then c
  else
    let c := p.drawBorder c a
    let offset := (a.width - Text.width p.title.toList) / 2
    c.drawRow (a.x + offset) a.y (a.width - 2) [Span.ofString p.title]

end Panel

end DeskCalc.Screen
