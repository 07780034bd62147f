import DeskCalc.Token

/-! # Why a line is refused -/

namespace DeskCalc

/-- The causes for which a line is refused. -/
inductive Rejection where
  /-- A character outside the alphabet of the language. -/
  | lexical (c : Char)
  /-- A token that cannot follow what was read; `place` says in words where reading stood. -/
  | unexpected (found : Token) (place : String)
  /-- An operator that needs more operands than there are. -/
  | underflow (op : Char) (needed found : Nat)
  /-- The end of the line with no value to store. -/
  | nothingToCommit
  /-- The end of the line with more than one value. -/
  | residual (count : Nat)
deriving DecidableEq

/-- The cause in words. -/
def Rejection.message : Rejection → String
  | lexical c => "unrecognized character " ++ Text.quoteChar c
  | unexpected found place => "unexpected " ++ found.describe ++ " " ++ place
  | underflow op needed found =>
    "`" ++ op.toString ++ "` needs " ++ toString needed ++ " operand(s) but the stack holds "
      ++ toString found
  | nothingToCommit => "no value left to assign"
  | residual count => toString count ++ " values left on the stack at end of line"

end DeskCalc
