/-! # Tables of code points

A property of characters is stored as a list of inclusive ranges in rising order. -/

namespace DeskCalc.Text

/-- Whether one of the rising `ranges` holds `n`; the search ends at the first range above `n`. -/
def inRanges (n : Nat) : List (Nat × Nat) → Bool
  | [] => false
  | (low, high) :: rest => if n < low then false else n ≤ high || inRanges n rest

end DeskCalc.Text
