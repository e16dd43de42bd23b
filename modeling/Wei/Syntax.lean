import Wei.Binary64
import Wei.Text.Point

/-!
Syntax trees of the language. There is no reader for program text here: a host hands in finished
trees. Each statement knows the line on which it begins; zero means that nobody said.
-/

namespace Wei

/-- A literal as it stands in the program text. An integer may have any size here. -/
inductive Literal where
  | null
  | bool (b : Bool)
  | int (n : Int)
  | str (t : Text)
  /-- A number with a fractional part. The language has no such values. -/
  | float (x : Binary64)
  deriving DecidableEq, Repr, Inhabited

/-- Operators with one operand. -/
inductive UnaryOp where
  | not | negate | plus | complement
  | other (symbol : String)
  deriving DecidableEq, Repr, Inhabited

/-- Operators with two operands, both of which are evaluated. -/
inductive BinaryOp where
  | add | sub | mul | div | mod
  | bitAnd | bitOr | bitXor | shiftLeft | shiftRight
  | lt | le | gt | ge | eq | ne
  | other (symbol : String)
  deriving DecidableEq, Repr, Inhabited

/-- Operators that evaluate their right operand only when it matters. -/
inductive ShortCircuit where
  | both | either
  deriving DecidableEq, Repr, Inhabited

mutual

/-- Expressions. -/
inductive Expr where
  | literal (l : Literal)
  | name (x : String)
  | list (elements : List Expr)
  | dict (pairs : List (Expr × Expr))
  | function (f : FunctionLiteral)
  | unary (op : UnaryOp) (operand : Expr)
  | binary (op : BinaryOp) (lhs rhs : Expr)
  | shortCircuit (op : ShortCircuit) (lhs rhs : Expr)
  | call (callee : Expr) (args : List Expr)
  | item (subject index : Expr)
  | attr (subject : Expr) (name : String)
  | load (path : Expr)

/-- The code of a function: its name if it has one, its parameters and its body. -/
inductive FunctionLiteral where
  | mk (name : Option String) (params : List String) (body : List Stmt)

/-- What an assignment assigns to. -/
inductive Target where
  | name (x : String)
  | item (subject index : Expr)
  | attr (subject : Expr) (name : String)
  /-- A loop over `subject` stands where a place should. The address of the loop is the host's. -/
  | loop (subject : Expr) (address : Nat)
  /-- Anything else that is no place. -/
  | invalid

/-- A statement with the line on which it begins. -/
inductive Stmt where
  | mk (line : Int) (action : Action)

/-- What a statement does. -/
inductive Action where
  | block (body : List Stmt)
  | declare (name : String) (value : Option Expr) (constant : Bool)
  | assign (target : Target) (value : Expr)
  | eval (e : Expr)
  | ret (value : Option Expr)
  | branch (branches : List (Expr × List Stmt)) (otherwise : Option (List Stmt))
  | loop (condition : Expr) (body : List Stmt)
  | each (targets : List String) (subject : Expr) (body : List Stmt) (constant : Bool)
  | breakLoop
  | continueLoop
  | define (f : FunctionLiteral)
  | classDef (name : String) (parent : Option Expr) (body : List Stmt)
  | member (name : String) (value : Option Expr) (constant classLevel : Bool)
  | method (f : FunctionLiteral) (classLevel : Bool)
  | exports (names : List String)

end

instance : Inhabited Expr := ⟨.literal .null⟩
instance : Inhabited Action := ⟨.block []⟩
instance : Inhabited Stmt := ⟨.mk 0 default⟩
instance : Inhabited FunctionLiteral := ⟨.mk none [] []⟩

/-- The name of a function, if it has one. -/
def FunctionLiteral.name : FunctionLiteral → Option String
  | .mk name _ _ => name

/-- The parameters of a function. -/
def FunctionLiteral.params : FunctionLiteral → List String
  | .mk _ params _ => params

/-- The statements of a function. -/
def FunctionLiteral.body : FunctionLiteral → List Stmt
  | .mk _ _ body => body

/-- The line on which a statement begins; zero if nobody said. -/
def Stmt.line : Stmt → Int
  | .mk line _ => line

/-- What a statement does. -/
def Stmt.action : Stmt → Action
  | .mk _ action => action

/-- The statement, said to begin on another line. -/
def Stmt.at (s : Stmt) (line : Int) : Stmt := .mk line s.action

/-- A whole program text. Its statements run in the scope of their module, not in one of their
own. -/
structure Program where
  body : List Stmt
  deriving Inhabited

/-- What a host may ask to have evaluated. -/
inductive Node where
  | program (p : Program)
  | stmt (s : Stmt)
  | expr (e : Expr)

end Wei
