import Wei.Equality
import Wei.Integer
import Wei.Render
import Wei.Syntax.Operator

/-!
Operators on values. Which operation an operator stands for is decided by the types of both
operands together.
-/

namespace Wei

/-- An operator on two integers of any size; none if the operator is not one of the language. -/
def BinaryOp.compute? (op : BinaryOp) (a b : Int) : Option (Except Fault Value) :=
  match op with
  | .add => some (.ok (.integer (a + b)))
  | .sub => some (.ok (.integer (a - b)))
  | .mul => some (.ok (.integer (a * b)))
  | .div => some ((Integer.divide a b).map .integer)
  | .mod => some ((Integer.modulo a b).map .integer)
  | .bitAnd => some (.ok (.integer (Integer.land a b)))
  | .bitOr => some (.ok (.integer (Integer.lor a b)))
  | .bitXor => some (.ok (.integer (Integer.xor a b)))
  | .shiftLeft => some ((Integer.shiftLeft a b).map .integer)
  | .shiftRight => some ((Integer.shiftRight a b).map .integer)
  | .lt => some (.ok (.bool (decide (a < b))))
  | .le => some (.ok (.bool (decide (a ≤ b))))
  | .gt => some (.ok (.bool (decide (b < a))))
  | .ge => some (.ok (.bool (decide (b ≤ a))))
  | .eq => some (.ok (.bool (decide (a = b))))
  | .ne => some (.ok (.bool (decide (a ≠ b))))
  | .other _ => none

/-- An operator on two integers of the language. -/
def BinaryOp.onIntegers? (op : BinaryOp) (a b : Int64) : Option (Except Fault Value) :=
  op.compute? a.toInt b.toInt

/-- An operator on two strings; none if strings do not have it as an operator of their own. -/
def BinaryOp.onTexts? (op : BinaryOp) (a b : Text) : Option (Except Fault Value) :=
  match op with
  | .add => some (.ok (.str (a ++ b)))
  | _ => none

/-- An operator on values of any types: only the two equality operators work on all of them. -/
def BinaryOp.onValues (op : BinaryOp) (s : Store) (a b : Value) : Except Fault Value :=
  match op with
  | .eq => .ok (.bool (s.equal a b))
  | .ne => .ok (.bool (!s.equal a b))
  | op => .error (.unsupportedOperands op.symbol (s.label a) (s.label b))

/-- An operator on two values. -/
def BinaryOp.apply (op : BinaryOp) (s : Store) (a b : Value) : Except Fault Value :=
  let own := match a, b with
    | .int m, .int n => op.onIntegers? m n
    | .str t, .str u => op.onTexts? t u
    | _, _ => none
  own.getD (op.onValues s a b)

/-- An operator on one value. -/
def UnaryOp.apply (op : UnaryOp) (s : Store) (v : Value) : Except Fault Value :=
  match op, v with
  | .not, v => .ok (.bool (!s.truth v))
  | .negate, .int n => .ok (.integer (-n.toInt))
  | .plus, .int n => .ok (.integer n.toInt)
  | .complement, .int n => .ok (.integer (~~~n.toInt))
  | op, v => .error (.unsupportedOperand op.symbol (s.label v))

end Wei
