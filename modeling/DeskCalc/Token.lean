import DeskCalc.Decimal.Notation
import DeskCalc.Text.Quoted

/-! # Tokens

The alphabet of the postfix language: operands, the four binary operators, negation `~`, assignment
`=`, and the end of the line.  Any character outside the alphabet becomes an `invalid` token. -/

namespace DeskCalc

/-- The operators that combine two operands. -/
inductive BinaryOp where
  | add
  | subtract
  | multiply
  | divide
deriving DecidableEq

namespace BinaryOp

/-- The character that names the operator. -/
def symbol : BinaryOp → Char
  | add => '+'
  | subtract => '-'
  | multiply => '*'
  | divide => '/'

/-- Combines two operands in the order in which they were written. -/
def apply : BinaryOp → Float → Float → Float
  | add, left, right => left + right
  | subtract, left, right => left - right
  | multiply, left, right => left * right
  | divide, left, right => left / right

end BinaryOp

/-- A token of the postfix language. -/
inductive Token where
  | binary (op : BinaryOp)
  | negate
  | assign
  | endOfLine
  | number (value : Float)
  | name (text : String)
  | invalid (c : Char)
deriving DecidableEq

namespace Token

/-- The token that a single character stands for, operands apart. -/
def ofSymbol? : Char → Option Token
  | '+' => some (binary .add)
  | '-' => some (binary .subtract)
  | '*' => some (binary .multiply)
  | '/' => some (binary .divide)
  | '~' => some negate
  | '=' => some assign
  | '\n' => some endOfLine
  | _ => none

/-- The binary operator that a token is. -/
def binaryOp? : Token → Option BinaryOp
  | binary op => some op
  | _ => none

/-- The token as a message cites it. -/
def describe : Token → String
  | binary op => "`" ++ op.symbol.toString ++ "`"
  | negate => "`~`"
  | assign => "`=`"
  | endOfLine => "end of line"
  | number value => "number " ++ Decimal.numeralText value
  | name text => "variable `" ++ text ++ "`"
  | invalid c => Text.quoteChar c

end Token

end DeskCalc
