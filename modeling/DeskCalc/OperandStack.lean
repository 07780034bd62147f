import DeskCalc.Rejection

/-! # Operand stack -/

namespace DeskCalc

/-- The operands that are still waiting for an operator, the latest first. -/
structure OperandStack where
  values : List Float
deriving DecidableEq

namespace OperandStack

/-- The stack at the start of a line. -/
def empty : OperandStack := ⟨[]⟩

/-- The number of waiting operands. -/
def size (s : OperandStack) : Nat := s.values.length

/-- Puts an operand on top. -/
def push (s : OperandStack) (value : Float) : OperandStack := ⟨value :: s.values⟩

/-- Takes the top operand away. -/
def pop? (s : OperandStack) : Option (Float × OperandStack) :=
  match s.values with
  | [] => none
  | value :: rest => some (value, ⟨rest⟩)

/-- Flips the sign of the top operand and answers with the new one. -/
def negateTop (s : OperandStack) : Except Rejection (Float × OperandStack) :=
  match s.values with
  | [] => .error (.underflow '~' 1 0)
  | value :: rest => .ok (-value, ⟨-value :: rest⟩)

/-- Two operands and what an operator made of them. -/
structure Combination where
  left : Float
  right : Float
  result : Float
deriving DecidableEq

/-- Replaces the two top operands by their combination; the lower one is the left operand. -/
def combine (s : OperandStack) (op : BinaryOp) :
    Except Rejection (Combination × OperandStack) :=
  match s.values with
  | right :: left :: rest =>
    let result := op.apply left right
    .ok (⟨left, right, result⟩, ⟨result :: rest⟩)
  | _ => .error (.underflow op.symbol 2 s.size)

end OperandStack

end DeskCalc
