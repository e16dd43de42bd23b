import Wei.Syntax

/-!
The spelling of operators. An operator that the language does not know keeps its spelling, so
that the fault it leads to can name it.
-/

namespace Wei

/-- How an operator with one operand is written. -/
def UnaryOp.symbol : UnaryOp → String
  | .not => "not"
  | .negate => "-"
  | .plus => "+"
  | .complement => "~"
  | .other symbol => symbol

/-- The operator with one operand that is written like this. -/
def UnaryOp.ofSymbol : String → UnaryOp
  | "not" => .not
  | "-" => .negate
  | "+" => .plus
  | "~" => .complement
  | symbol => .other symbol

/-- How an operator with two operands is written. -/
def BinaryOp.symbol : BinaryOp → String
  | .add => "+"
  | .sub => "-"
  | .mul => "*"
  | .div => "/"
  | .mod => "%"
  | .bitAnd => "&"
  | .bitOr => "|"
  | .bitXor => "^"
  | .shiftLeft => "<<"
  | .shiftRight => ">>"
  | .lt => "<"
  | .le => "<="
  | .gt => ">"
  | .ge => ">="
  | .eq => "=="
  | .ne => "!="
  | .other symbol => symbol

/-- The operator with two operands that is written like this. -/
def BinaryOp.ofSymbol : String → BinaryOp
  | "+" => .add
  | "-" => .sub
  | "*" => .mul
  | "/" => .div
  | "%" => .mod
  | "&" => .bitAnd
  | "|" => .bitOr
  | "^" => .bitXor
  | "<<" => .shiftLeft
  | ">>" => .shiftRight
  | "<" => .lt
  | "<=" => .le
  | ">" => .gt
  | ">=" => .ge
  | "==" => .eq
  | "!=" => .ne
  | symbol => .other symbol

/-- The short-circuit operator that is written like this, if there is one. -/
def ShortCircuit.ofSymbol? : String → Option ShortCircuit
  | "and" => some .both
  | "or" => some .either
  | _ => none

end Wei
