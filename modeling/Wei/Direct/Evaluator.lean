import Wei.Eval.Load

/-!
Evaluation in direct style. Whatever comes of a part of a script is answered as a value: also a
fault, a value that is being returned, and what `break` and `continue` send on its way. Each
construct looks at what its parts have answered, and passes on what is not for it. There is no
answer only if the host cannot go on.
-/

namespace Wei

namespace Value

/-- Is it a fault? -/
def isError : Value → Bool
  | .error _ => true
  | _ => false

/-- Does it end the statements in whose sequence it is answered? -/
def interrupts (v : Value) : Bool := !v.isOrdinary

end Value

namespace Eval

/-- The answer to an operation: its value, or the fault in which it ends. -/
def answer (x : Eval Value) : Eval Value :=
  fun m =>
    match x m with
    | .error (.fault f) m => .ok (.error f) m
    | r => r

/-- What comes of an operation, or the fault in which it ends. -/
def attempt {α : Type} (x : Eval α) : Eval (Except Value α) :=
  fun m =>
    match x m with
    | .ok a m => .ok (.ok a) m
    | .error (.fault f) m => .ok (.error (.error f)) m
    | .error e m => .error e m

/-- The answer to a change of the store: null, or the fault in which it ends. -/
def change (x : StoreM Unit) : Eval Value := answer do
  onStore x
  pure .null

/-- Keeps a fault, and answers it. -/
def keep (f : Fault) : Eval Value := fun m => .ok (.error f) (m.recordFault f)

end Eval

/-- Evaluates expressions and statements in a scope, and finds the walk through a value, in direct
style. -/
structure Direct where
  expr : Ref .scope → Expr → Eval Value
  stmt : Ref .scope → Stmt → Eval Value
  walk : Value → Eval (Except Value Iteration)

namespace Direct

/-- Refuses everything. -/
def exhausted : Direct where
  expr _ _ := throw .tooDeep
  stmt _ _ := throw .tooDeep
  walk _ := throw .tooDeep

/-- Keeps what is answered if it is a fault. -/
def keeping : Value → Eval Value
  | .error f => Eval.keep f
  | v => pure v

/-- What no loop has taken is a fault. -/
def outsideLoops : Value → Eval Value
  | .breaking => Eval.keep (.strayExit "break_value")
  | .continuing => Eval.keep (.strayExit "continue_value")
  | v => pure v

variable (parts : Direct)

/-- Evaluates expressions from left to right. The first fault is the answer. -/
def exprs (parts : Direct) (scope : Ref .scope) : List Expr → Eval (Except Value (List Value))
  | [] => pure (.ok [])
  | e :: rest => do
    let v ← parts.expr scope e
    if v.isError then pure (.error v)
    else
      match ← parts.exprs scope rest with
      | .error problem => pure (.error problem)
      | .ok vs => pure (.ok (v :: vs))

/-- Evaluates an expression that may be missing. -/
def expr? (scope : Ref .scope) : Option Expr → Eval (Except Value (Option Value))
  | none => pure (.ok none)
  | some e => do
    let v ← parts.expr scope e
    if v.isError then pure (.error v) else pure (.ok (some v))

/-- Executes a statement: its line becomes the line of the frame, and a fault that it answers is
kept. -/
def execute (scope : Ref .scope) (s : Stmt) : Eval Value := do
  Eval.atLine s.line
  parts.stmt scope s >>= keeping

/-- Executes statements one after the other in one scope, up to one that interrupts the sequence.
The answer is that of the last one, or `last` if there is none. -/
def sequence (parts : Direct) (scope : Ref .scope) (last : Value) : List Stmt → Eval Value
  | [] => pure last
  | s :: rest => do
    let v ← parts.execute scope s
    if v.interrupts then pure v else parts.sequence scope v rest

/-- Executes statements in a scope of their own. -/
def block (scope : Ref .scope) (body : List Stmt) : Eval Value := do
  let own ← Eval.onStore (StoreM.childScope scope)
  parts.sequence own .null body

/-- Executes the statements of a program text in the scope of its module. A value returned at the
top level is the answer. -/
def topLevel (parts : Direct) (scope : Ref .scope) (last : Value) : List Stmt → Eval Value
  | [] => pure last
  | s :: rest => do
    match ← parts.execute scope s with
    | .returned v => pure v
    | .error f => pure (.error f)
    | .breaking => Eval.keep (.strayExit "break_value")
    | .continuing => Eval.keep (.strayExit "continue_value")
    | v => parts.topLevel scope v rest

/-- Executes a program text. -/
def program (scope : Ref .scope) (p : Program) : Eval Value := parts.topLevel scope .null p.body

end Direct

end Wei
