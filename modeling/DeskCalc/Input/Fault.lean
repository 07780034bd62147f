/-! # What can go wrong with input and output -/

namespace DeskCalc

/-- Failures of the world outside. -/
inductive Fault where
  /-- A line that was read is not valid UTF-8. -/
  | invalidUtf8
  /-- A writer does not take all of the text. -/
  | writerFull
  /-- The keyboard cannot be read. -/
  | keyReadFailed
deriving DecidableEq

/-- The failure in words. -/
def Fault.message : Fault → String
  | invalidUtf8 => "stream did not contain valid UTF-8"
  | writerFull => "failed to write whole buffer"
  | keyReadFailed => "key read failed"

/-- Why there is no next line. -/
inductive InputError where
  /-- The source has no more lines. -/
  | endOfInput
  /-- The line is the word that ends the session. -/
  | exit
  /-- The source failed. -/
  | failed (fault : Fault)
deriving DecidableEq

namespace InputError

/-- The reason in words. -/
def message : InputError → String
  | endOfInput => "end of input"
  | exit => "exit requested"
  | failed _ => "failed to read input line"

/-- Whether this is one of the two orderly ways to end a session. -/
def isHalt : InputError → Bool
  | failed _ => false
  | _ => true

end InputError

end DeskCalc
