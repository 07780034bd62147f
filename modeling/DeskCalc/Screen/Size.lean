/-! # Size of a screen

A screen has a limited number of cells.  Who asks for more gets a smaller screen of the same
shape. -/

namespace DeskCalc.Screen

/-- The size of a screen in cells. -/
structure Size where
  width : Nat
  height : Nat
deriving DecidableEq

namespace Size

/-- The most cells of a screen. -/
def maxCells : Nat := 65535

/-- The size of the screen one gets when asking for this size.  A screen of too many cells is
shrunk to about the most cells with its ratio of width to height kept; both sides are rounded
down. -/
def clip (s : Size) : Size :=
  if s.width * s.height ≤ maxCells then s
  else
    let ratio := Float.ofNat s.width / Float.ofNat s.height
    let height := (Float.ofNat maxCells / ratio).sqrt
    ⟨(height * ratio).toUInt16.toNat, height.toUInt16.toNat⟩

/-- A size within the limit is kept. -/
theorem clip_of_le {s : Size} (h : s.width * s.height ≤ maxCells) : s.clip = s := by
  simp [clip, h]

end Size

end DeskCalc.Screen
