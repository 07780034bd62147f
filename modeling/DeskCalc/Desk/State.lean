import DeskCalc.Calculator
import DeskCalc.Editing.EntryField
import DeskCalc.Text.Blank

/-! # The full-screen calculator

The state behind the screen: an entry field, a calculator that is fed one expression at a time, the
history of what was entered, and the places to which the panels are scrolled. -/

namespace DeskCalc

/-- An expression that was entered and what became of it. -/
structure HistoryEntry where
  input : List Char
  result : Except Diagnostic Float
  /-- The steps of the evaluation, when details were asked for. -/
  steps : List Step
  detailed : Bool
  /-- How long the evaluation took, in nanoseconds. -/
  elapsed : Nat

/-- The state of the full-screen calculator. -/
structure Desk where
  calculator : Calculator LineQueue
  exitWord : List Char
  entry : EntryField
  history : List HistoryEntry
  /-- The index of the selected history entry. -/
  selected : Nat
  quitting : Bool
  helpShown : Bool
  helpScroll : Nat
  /-- The height of the history panel when it was last drawn. -/
  listHeight : Nat
  /-- For each history entry, the row at which it started when the panel was last drawn. -/
  itemStarts : List Nat
  historyScroll : Nat
  /-- Whether the next drawing scrolls to the end of the history. -/
  scrollToBottom : Bool

namespace Desk

/-- A desk with nothing entered yet. -/
def new (exitWord : List Char) : Desk where
  calculator := Calculator.new LineQueue.empty (some exitWord)
  exitWord := exitWord
  entry := EntryField.empty
  history := []
  selected := 0
  quitting := false
  helpShown := false
  helpScroll := 0
  listHeight := 5
  itemStarts := []
  historyScroll := 0
  scrollToBottom := false

/-- The word in front of an expression that asks for details, with the space behind it. -/
def detailsWord : List Char := "details ".toList

/-- Whether `text` is `word`, which is in lower case, when the case of ASCII letters is ignored.  No
other character has a letter of the command words as its lower case. -/
def isWord (text : List Char) (word : String) : Bool :=
  text.map Char.toLower == word.toList

/-- Splits the request for details off a line. -/
def splitDetails (line : List Char) : Bool × List Char :=
  if (line.take detailsWord.length).map Char.toLower = detailsWord then
    (true, Text.trim (line.drop detailsWord.length))
  else (false, line)

/-- Empties the entry field. -/
def clearEntry (d : Desk) : Desk := { d with entry := d.entry.clear }

/-- Forgets the history; variables are kept. -/
def clearHistory (d : Desk) : Desk :=
  { d with history := [], selected := 0, historyScroll := 0 }

/-- Shows the help screen from its top. -/
def openHelp (d : Desk) : Desk := { d with helpShown := true, helpScroll := 0 }

/-- Goes back to the main screen. -/
def closeHelp (d : Desk) : Desk := { d with helpShown := false, helpScroll := 0 }

/-- Evaluates an expression in `elapsed` nanoseconds and adds it to the history.  When the
calculator has no more input, which happens at the exit word, the desk quits instead. -/
def evaluate (d : Desk) (expression : List Char) (detailed : Bool) (elapsed : Nat) : Desk :=
  let fed := d.calculator.withSource (d.calculator.source.push expression)
  let (reply, calculator) := fed.evaluate detailed
  let d := { d with calculator }
  let record (result : Except Diagnostic Float) : Desk :=
    { d with
      history := d.history ++ [⟨expression, result, reply.steps, detailed, elapsed⟩]
      selected := d.history.length
      scrollToBottom := true }
  match reply.result with
  | .ok value => record (.ok value)
  | .error (.rejected diagnostic) => record (.error diagnostic)
  -- the calculator has just been fed, so it can only have met the exit word
  | .error (.input _) => { d with quitting := true }

/-- Takes the text of the entry field: the exit word quits, `clear` and `help` are commands, and
anything else is evaluated.  Blanks at its ends do not count, and a blank text does nothing. -/
def submit (d : Desk) (elapsed : Nat) : Desk :=
  let line := Text.trim d.entry.chars
  if line.isEmpty then d
  -- the exit word is taken as it was given, blanks included
  else if line = d.exitWord then { d with quitting := true }
  else if isWord line "clear" then d.clearHistory.clearEntry
  else if isWord line "help" then d.openHelp.clearEntry
  else
    let (detailed, expression) := splitDetails line
    if expression.isEmpty then d.clearEntry
    else (d.evaluate expression detailed elapsed).clearEntry

/-- Moves the selection by `delta` entries, within the history, and recalls the input found
there. -/
def select (d : Desk) (delta : Int) : Desk :=
  -- `toNat` stops at the first entry
  let target := min ((d.selected : Int) + delta).toNat (d.history.length - 1)
  match d.history[target]? with
  | none => d
  | some entry =>
    { d with selected := target, entry := d.entry.replace entry.input, scrollToBottom := false }

/-- Moves the selection by `direction` pages, a page being one entry less than the panel is
high. -/
def page (d : Desk) (direction : Int) : Desk :=
  d.select (direction * (max (d.listHeight - 1) 1 : Nat))

end Desk

end DeskCalc
