/-! # Traces

The steps of an evaluation, for a reader who asks for details. -/

namespace DeskCalc

/-- One step: what was done, in words, and the value that came of it. -/
structure Step where
  operation : String
  result : Float
deriving DecidableEq

/-- The steps taken so far; they are kept only when details are asked for. -/
structure Trace where
  detailed : Bool
  steps : List Step
deriving DecidableEq

namespace Trace

/-- The trace at the start of a line. -/
def start (detailed : Bool) : Trace := ⟨detailed, []⟩

/-- Adds a step if details are asked for. -/
def add (t : Trace) (operation : String) (result : Float) : Trace :=
  if t.detailed then { t with steps := t.steps ++ [⟨operation, result⟩] } else t

end Trace

end DeskCalc
