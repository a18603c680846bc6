import Lox.Evaluation.Error
import Lox.Value.Basic

set_option autoImplicit false

/-!
# Operators

What operators make of values, and the faults of operands that they are not for.
-/

namespace Lox

def numbers (left right : Value) : Except RuntimeError.Cause (Float × Float) :=
  match left.number?, right.number? with
  | some a, some b => .ok (a, b)
  | _, _ => .error .operandsMustBeNumbers

def BinaryOp.apply (op : BinaryOp) (left right : Value) : Except RuntimeError.Cause Value :=
  match op with
  | .equal => .ok (.bool (left.equals right))
  | .notEqual => .ok (.bool (!left.equals right))
  | .add =>
    match left, right with
    | .number a, .number b => .ok (.number (a + b))
    | .string a, .string b => .ok (.string (a ++ b))
    | _, _ => .error .invalidAddOperands
  | .sub => (numbers left right).map fun (a, b) => .number (a - b)
  | .mul => (numbers left right).map fun (a, b) => .number (a * b)
  | .div => do
    let (a, b) ← numbers left right
    if b == 0 then .error .divisionByZero else .ok (.number (a / b))
  | .greater => (numbers left right).map fun (a, b) => .bool (b < a)
  | .greaterEqual => (numbers left right).map fun (a, b) => .bool (b ≤ a)
  | .less => (numbers left right).map fun (a, b) => .bool (a < b)
  | .lessEqual => (numbers left right).map fun (a, b) => .bool (a ≤ b)

def UnaryOp.apply (op : UnaryOp) (operand : Value) : Except RuntimeError.Cause Value :=
  match op with
  | .not => .ok (.bool !operand.isTruthy)
  | .negate =>
    match operand.number? with
    | some a => .ok (.number (-a))
    | none => .error .operandMustBeNumber

/-- Whether the left operand alone settles the result. -/
def LogicalOp.isSettledBy (op : LogicalOp) (left : Value) : Bool :=
  match op with
  | .or => left.isTruthy
  | .and => !left.isTruthy

end Lox
