import Wei.Attribute
import Wei.Eval.Call
import Wei.Eval.Load
import Wei.Item
import Wei.Operator

/-!
What each expression answers. Parts are evaluated from left to right, and the first exit among
them is the exit of the whole.
-/

namespace Wei

/-- The value that a literal stands for. -/
def Literal.value : Literal → Except Crash Value
  | .null => .ok .null
  | .bool b => .ok (.bool b)
  | .int n => .ok (.integer n)
  | .str t => .ok (.str t)
  | .float _ => .error .unsupportedLiteral

namespace Evaluator

/-- What a name means. -/
def name (scope : Ref .scope) (x : String) : Eval Value := do
  match (← Eval.store).lookup? scope x with
  | some v => pure v
  | none =>
    match rootName? x with
    | some v => pure v
    | none => Eval.fault (.undefinedName x)

/-- The function that the code of a function stands for here and now. -/
def closure (scope : Ref .scope) (owner : Option (Ref .cls)) (f : FunctionLiteral) :
    Eval (Ref .function) := do
  let path := (← get).modulePath
  Eval.onStore (StoreM.newFunction ⟨f.name, f.params, f.body, scope, path, owner⟩)

variable (parts : Evaluator)

/-- Evaluates the pairs of a dictionary into the entries that there are already. A key that
cannot be one is refused before its value is evaluated. -/
def entries (parts : Evaluator) (scope : Ref .scope) (acc : Dict) : List (Expr × Expr) → Eval Dict
  | [] => pure acc
  | (k, v) :: rest => do
    let key ← parts.expr scope k
    Eval.orCrash key.encode
    match key.hashKey? with
    | none => Eval.fault (.unhashable ((← Eval.store).label key))
    | some hash => do
      let value ← parts.expr scope v
      parts.entries scope (acc.insert hash (key, value)) rest

/-- Evaluates the right operand of a short-circuit operator if it matters. The answer is a
boolean in any case. -/
def shortCircuit (scope : Ref .scope) (op : ShortCircuit) (lhs rhs : Expr) : Eval Value := do
  let left ← parts.expr scope lhs
  let known := (← Eval.store).truth left
  if known = (op = .either) then pure (.bool known)
  else do
    let right ← parts.expr scope rhs
    pure (.bool ((← Eval.store).truth right))

/-- Evaluates an expression. Modules come from the loader. -/
def evalExpr (load : Loader) (scope : Ref .scope) : Expr → Eval Value
  | .literal l => Eval.orCrash l.value
  | .name x => name scope x
  | .list es => do
    let elements ← parts.exprs scope es
    return .list (← Eval.onStore (StoreM.newList elements))
  | .dict pairs => do
    let d ← parts.entries scope .empty pairs
    return .dict (← Eval.onStore (StoreM.newDict d))
  | .function f => do
    return .function (← closure scope none f)
  | .unary op e => do
    let v ← parts.expr scope e
    Eval.askStore fun s => op.apply s v
  | .binary op lhs rhs => do
    let left ← parts.expr scope lhs
    let right ← parts.expr scope rhs
    Eval.askStore fun s => op.apply s left right
  | .shortCircuit op lhs rhs => parts.shortCircuit scope op lhs rhs
  | .call callee args => do
    let f ← parts.expr scope callee
    let vs ← parts.exprs scope args
    parts.apply f vs
  | .item subject index => do
    let v ← parts.expr scope subject
    let i ← parts.expr scope index
    Eval.orCrash (i.encodeIndex v)
    Eval.askStore fun s => s.item v i
  | .attr subject x => do
    let v ← parts.expr scope subject
    Eval.onStore (StoreM.getAttribute v x)
  | .load path => do
    match ← parts.expr scope path with
    | .str p => do load parts (← Eval.orCrash p.encode)
    | v => Eval.fault (.wrongArgument ((← Eval.store).label v))

end Evaluator

end Wei
