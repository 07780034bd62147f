import DeskCalc.Screen.Style
import DeskCalc.Text.Alphabetic

/-! # Highlighted expressions

An expression is colored in runs: names, numbers, and single other characters.  A letter starts or
continues a name, a digit continues a name or belongs to a number, and a point continues a
number. -/

namespace DeskCalc.Desk

open Screen

/-- The kind of run that a character belongs to. -/
inductive Run where
  | other
  | number
  | name
deriving DecidableEq

namespace Run

/-- The kind of the run with `c`, which comes behind a run of kind `run`. -/
def next (run : Run) (c : Char) : Run :=
  if run = name ∧ (Text.isAlphabetic c ∨ c.isDigit) then name
  else if Text.isAlphabetic c then name
  else if c.isDigit ∨ (run = number ∧ c = '.') then number
  else other

/-- The look of a run; `base` is the look of characters that are neither names nor numbers. -/
def style (base : Style) : Run → Style
  | other => base
  | number => Style.color .lightGreen
  | name => Style.boldColor .lightBlue

end Run

/-- Whether `c` is an operator. -/
def isOperator (c : Char) : Bool :=
  ['+', '-', '*', '/', '~', '='].contains c

/-- The span of a single character outside names and numbers. -/
def otherSpan (base : Style) (c : Char) : Span :=
  if isOperator c then ⟨[c], Style.boldColor .yellow⟩
  else if c = ' ' then ⟨[c], Style.plain⟩
  else ⟨[c], base⟩

/-- The span of a finished run, if it has any characters. -/
def runSpan (base : Style) (run : Run) (chars : List Char) : List Span :=
  if chars.isEmpty then [] else [⟨chars, run.style base⟩]

/-- Colors a text that comes behind the characters `chars` of a run that may go on. -/
def highlightFrom (base : Style) (run : Run) (chars : List Char) : List Char → List Span
  | [] => runSpan base run chars
  | c :: rest =>
    let next := run.next c
    -- a character outside names and numbers is a span of its own
    if next = .other then
      runSpan base run chars ++ otherSpan base c :: highlightFrom base .other [] rest
    else if next = run then highlightFrom base run (chars ++ [c]) rest
    else runSpan base run chars ++ highlightFrom base next [c] rest

/-- Colors an expression. -/
def highlight (base : Style) (text : List Char) : List Span :=
  highlightFrom base .other [] text

end DeskCalc.Desk
