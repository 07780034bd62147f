import DeskCalc.OperandStack
import DeskCalc.SymbolTable
import DeskCalc.Trace

/-! # Evaluation of a line

A line is an expression in postfix notation, optionally with a name and `=` in front.  Its tokens
are taken one by one:

| phase         | takes                              | goes to       |
|---------------|------------------------------------|---------------|
| `start`       | a number                           | `afterNumber` |
| `start`       | a name                             | `afterName`   |
| `afterNumber` | a number, a name, `~`              | `inside`      |
| `afterName`   | a number, a name, `~`, `=`         | `inside`      |
| `inside`      | a number, a name, `~`, `+ - * /`   | `inside`      |

At the end of the line the top of the stack is stored in the target, and only then values left
below it refuse the line.  Any other token refuses the line where it stands.  Reading a name that is
not listed lists it with the value zero, and it stays listed when the line is refused later. -/

namespace DeskCalc

/-- How far the reading of a line has come. -/
inductive Phase where
  | start
  | afterNumber
  | afterName (name : String)
  | inside
deriving DecidableEq

/-- The phase as a message cites it. -/
def Phase.describe : Phase → String
  | start => "at start of expression"
  | afterNumber => "after a number"
  | afterName _ => "after first operand"
  | inside => "inside expression"

/-- A line of which some tokens have been taken. -/
structure LineState where
  phase : Phase
  stack : OperandStack
  /-- The name that will receive the value. -/
  target : String
  symbols : SymbolTable
  trace : Trace

/-- What became of a line. -/
structure Outcome where
  result : Except Rejection Float
  symbols : SymbolTable
  trace : Trace
  /-- How many tokens were read, the one that decided included. -/
  read : Nat

namespace LineState

/-- A line of which nothing has been taken. -/
def start (symbols : SymbolTable) (detailed : Bool) : LineState :=
  ⟨.start, OperandStack.empty, defaultTarget, symbols, Trace.start detailed⟩

/-- Refuses `token`: by its character if it is outside the alphabet, else by the phase. -/
def refuse (s : LineState) : Token → Rejection
  | .invalid c => .lexical c
  | token => .unexpected token s.phase.describe

/-- Puts the value of a number literal on the stack. -/
def pushNumber (s : LineState) (value : Float) : LineState :=
  { s with stack := s.stack.push value }

/-- Puts the value of a variable on the stack. -/
def pushName (s : LineState) (name : String) : LineState :=
  let (value, symbols) := s.symbols.fetch name
  { s with stack := s.stack.push value, symbols, trace := s.trace.add name value }

/-- Negates the top of the stack. -/
def negate (s : LineState) : Except Rejection LineState := do
  let (value, stack) ← s.stack.negateTop
  -- the operand is gone, so the step shows it as the negative of the value
  return { s with
    phase := .inside
    stack
    trace := s.trace.add ("~ " ++ Decimal.valueText (-value)) value }

/-- Combines the two values on top of the stack. -/
def combine (s : LineState) (op : BinaryOp) : Except Rejection LineState := do
  let (c, stack) ← s.stack.combine op
  let operation :=
    Decimal.valueText c.left ++ " " ++ op.symbol.toString ++ " " ++ Decimal.valueText c.right
  return { s with phase := .inside, stack, trace := s.trace.add operation c.result }

/-- Makes `name` the target; its value, read as the first operand, is dropped. -/
def retarget (s : LineState) (name : String) : LineState :=
  { s with phase := .inside, stack := OperandStack.empty, target := name }

/-- Takes one token, the end of the line apart. -/
def step (s : LineState) (token : Token) : Except Rejection LineState :=
  match s.phase, token with
  | .start, .number value => .ok { s.pushNumber value with phase := .afterNumber }
  | .start, .name name => .ok { s.pushName name with phase := .afterName name }
  | .start, token => .error (s.refuse token)
  | _, .number value => .ok { s.pushNumber value with phase := .inside }
  | _, .name name => .ok { s.pushName name with phase := .inside }
  | _, .negate => s.negate
  | _, .binary op => s.combine op
  | .afterName name, .assign => .ok (s.retarget name)
  | _, token => .error (s.refuse token)

/-- The end of the line: stores the top of the stack, then refuses values left below it. -/
def finish (s : LineState) : Outcome :=
  match s.phase, s.stack.pop? with
  | .start, _ => ⟨.error (s.refuse .endOfLine), s.symbols, s.trace, 1⟩
  | _, none => ⟨.error .nothingToCommit, s.symbols, s.trace, 1⟩
  | _, some (value, below) =>
    -- the value is stored even if values below it refuse the line
    let symbols := s.symbols.assign s.target value
    let trace := s.trace.add (s.target ++ " = " ++ Decimal.valueText value) value
    if below.size = 0 then ⟨.ok value, symbols, trace, 1⟩
    else ⟨.error (.residual (below.size + 1)), symbols, trace, 1⟩

/-- Takes tokens until one of them decides the line.  The list may leave out the end of the line. -/
def run (s : LineState) : List Token → Outcome
  | [] => s.finish
  | .endOfLine :: _ => s.finish
  | token :: rest =>
    match s.step token with
    | .error rejection => ⟨.error rejection, s.symbols, s.trace, 1⟩
    | .ok next =>
      let outcome := next.run rest
      { outcome with read := outcome.read + 1 }

end LineState

/-- Evaluates a line, given by its tokens, against a symbol table. -/
def evaluateLine (symbols : SymbolTable) (detailed : Bool) (tokens : List Token) : Outcome :=
  (LineState.start symbols detailed).run tokens

end DeskCalc
