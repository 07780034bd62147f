import DeskCalc.Desk.Highlight
import DeskCalc.Desk.State
import DeskCalc.Text.Wrap

/-! # The rows of the history

Each entry of the history has a headline with the expression and its value or the reason why it was
refused.  A refused line follows with a caret under the place where reading stopped, and then the
steps, wrapped to the panel, if details were asked for.  A line separates neighbouring entries. -/

namespace DeskCalc

open Screen

/-- The milliseconds of a duration in nanoseconds, by way of seconds in double precision. -/
def milliseconds (nanoseconds : Nat) : Float :=
  (Float.ofNat (nanoseconds / 1000000000)
    + Float.ofNat (nanoseconds % 1000000000) / 1000000000.0) * 1000.0

namespace HistoryEntry

/-- The spaces in front of a step. -/
def stepIndent : List Char := [' ', ' ', ' ', ' ']

/-- The expression and what became of it. -/
def headline (e : HistoryEntry) (selected : Bool) : Row :=
  let base := Style.color (if selected then .yellow else .cyan)
  Span.styled "> " (Style.color .green) :: Desk.highlight base e.input
    ++ [Span.styled " = " (Style.color .gray),
      match e.result with
      | .ok value => Span.styled (Decimal.valueText value) (Style.boldColor .lightMagenta)
      | .error d => Span.styled ("error: " ++ d.message) (Style.boldColor .red)]

/-- The refused line and the caret under it. -/
def diagnosticRows (e : HistoryEntry) : List Row :=
  match e.result with
  | .ok _ => []
  | .error d =>
    [[⟨' ' :: ' ' :: d.echoLine, Style.color .gray⟩],
      [⟨' ' :: ' ' :: List.replicate d.caretPadding ' ' ++ ['^'], Style.color .red⟩]]

/-- The numbered steps and the time they took, each with its color. -/
def notes (e : HistoryEntry) : List (String × Color) :=
  let steps := e.steps.mapIdx fun i step =>
    (toString (i + 1) ++ ". " ++ step.operation ++ " = " ++ Decimal.valueText step.result,
      Color.darkGray)
  steps ++ [("took " ++ Decimal.fixedText 6 (milliseconds e.elapsed) ++ " ms", Color.magenta)]

/-- The rows of a note, wrapped to `width` columns behind the indent. -/
def noteRows (width : Nat) (note : String × Color) : List Row :=
  (Text.wrap Text.Measure.display width note.1.toList).map fun line =>
    [⟨stepIndent ++ line, Style.color note.2⟩]

/-- The rows of the steps, if details were asked for. -/
def stepRows (e : HistoryEntry) (width : Nat) : List Row :=
  if e.detailed then e.notes.flatMap (noteRows width) else []

/-- All rows of an entry. -/
def rows (e : HistoryEntry) (selected : Bool) (width : Nat) : List Row :=
  e.headline selected :: (e.diagnosticRows ++ e.stepRows width)

end HistoryEntry

namespace Desk

/-- The rows of a history panel that is `width` columns wide inside, and the index of the first row
of each entry.  `index` is the index of the first entry, before which `count` rows stand. -/
def rowsFrom (width selected : Nat) (count index : Nat) :
    List HistoryEntry → List Row × List Nat
  | [] => ([], [])
  | e :: rest =>
    let separator : List Row :=
      if index = 0 then [] else [[⟨List.replicate width '─', Style.color .darkGray⟩]]
    let rows := e.rows (index = selected) (width - HistoryEntry.stepIndent.length)
    let start := count + separator.length
    let (more, starts) := rowsFrom width selected (start + rows.length) (index + 1) rest
    (separator ++ rows ++ more, start :: starts)

/-- The rows of the history panel and the index of the first row of each entry. -/
def historyRows (d : Desk) (width : Nat) : List Row × List Nat :=
  rowsFrom width d.selected 0 0 d.history

end Desk

end DeskCalc
