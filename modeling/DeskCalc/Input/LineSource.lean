import DeskCalc.Input.Fault

/-! # Line sources

A line source hands out one line at a time, without its end.  A source may be endless; a finite one
can say how much input it still holds.  Taking a line makes that less, so that every session on a
finite source comes to an end. -/

namespace DeskCalc

/-- The outcome of asking for a line. -/
inductive LineRead where
  | line (text : List Char)
  | ended
  | failed (fault : Fault)
deriving DecidableEq

/-- A supply of lines. -/
class LineSource (σ : Type) where
  /-- Asks for the next line. -/
  readLine : σ → LineRead × σ

/-- A supply that comes to an end. -/
class FiniteSource (σ : Type) extends LineSource σ where
  /-- How much input is left. -/
  remaining : σ → Nat
  /-- Taking a line uses input up. -/
  remaining_lt : ∀ (s s' : σ) (text : List Char),
    readLine s = (.line text, s') → remaining s' < remaining s

/-- Lines that wait in memory. -/
structure LineQueue where
  lines : List (List Char)
deriving DecidableEq

namespace LineQueue

/-- The queue without lines. -/
def empty : LineQueue := ⟨[]⟩

/-- Adds a line at the end. -/
def push (q : LineQueue) (line : List Char) : LineQueue := ⟨q.lines ++ [line]⟩

/-- Takes the first line. -/
def readLine (q : LineQueue) : LineRead × LineQueue :=
  match q.lines with
  | [] => (.ended, q)
  | line :: rest => (.line line, ⟨rest⟩)

/-- A line that is handed out is taken from the queue. -/
theorem length_readLine_lt (q q' : LineQueue) (text : List Char)
    (h : q.readLine = (.line text, q')) : q'.lines.length < q.lines.length := by
  unfold readLine at h
  split at h
  · simp at h
  · next hq =>
    obtain ⟨_, rfl⟩ := Prod.mk.inj h
    simp [hq]

instance : FiniteSource LineQueue where
  readLine := readLine
  remaining q := q.lines.length
  remaining_lt := length_readLine_lt

end LineQueue

end DeskCalc
