import Wei.Eval.Machine

/-!
How constructs evaluate their parts. A construct is given an evaluator for its parts, which may
go one level less deep than the construct itself; the evaluator of no depth refuses everything.
-/

namespace Wei

/-- Evaluates expressions and statements in a scope, and finds the walk through a value. -/
structure Evaluator where
  expr : Ref .scope → Expr → Eval Value
  stmt : Ref .scope → Stmt → Eval Value
  walk : Value → Eval Iteration

/-- Loads the module that a script calls by a name. The evaluator is for the text of the module. -/
abbrev Loader := Evaluator → String → Eval Value

namespace Evaluator

/-- Refuses everything. -/
def exhausted : Evaluator where
  expr _ _ := throw .tooDeep
  stmt _ _ := throw .tooDeep
  walk _ := throw .tooDeep

variable (parts : Evaluator)

/-- Evaluates expressions from left to right. -/
def exprs (parts : Evaluator) (scope : Ref .scope) : List Expr → Eval (List Value)
  | [] => pure []
  | e :: rest => do
    let v ← parts.expr scope e
    let vs ← parts.exprs scope rest
    pure (v :: vs)

/-- Evaluates an expression that may be missing. -/
def expr? (scope : Ref .scope) : Option Expr → Eval (Option Value)
  | none => pure none
  | some e => do pure (some (← parts.expr scope e))

/-- Executes a statement: its line becomes the line of the frame, and a fault in which it ends is
kept. -/
def execute (scope : Ref .scope) (s : Stmt) : Eval Value := do
  Eval.atLine s.line
  Eval.recording (parts.stmt scope s)

/-- Executes statements one after the other in one scope. The answer is that of the last one,
or `last` if there is none. -/
def sequence (parts : Evaluator) (scope : Ref .scope) (last : Value) : List Stmt → Eval Value
  | [] => pure last
  | s :: rest => do
    let v ← parts.execute scope s
    parts.sequence scope v rest

/-- Executes statements in a scope of their own. -/
def block (scope : Ref .scope) (body : List Stmt) : Eval Value := do
  let own ← Eval.onStore (StoreM.childScope scope)
  parts.sequence own .null body

/-- Executes a program text in the scope of its module. A value returned at the top level is the
answer. -/
def program (scope : Ref .scope) (p : Program) : Eval Value :=
  Eval.takingReturn (Eval.outsideLoops (parts.sequence scope .null p.body))

end Evaluator

end Wei
