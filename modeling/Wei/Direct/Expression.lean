import Wei.Direct.Evaluator
import Wei.Eval.Expression

/-!
Calls, imports and expressions in direct style. What a part has answered is looked at before
anything is done with it: a fault is the answer of the whole.
-/

namespace Wei.Direct

variable (parts : Direct)

/-! ### Calls -/

/-- What a call answers to what comes of the body: the value that is being returned, or else
null. -/
def returnValue : Value → Eval Value
  | .returned v => pure v
  | .error f => pure (.error f)
  | _ => pure .null

/-- Calls a function of a script, with bindings for its receiver. The answer is what it returns,
or else null. -/
def callFunction (f : Ref .function) (args : List Value) (bindings : List (String × Value)) :
    Eval Value := do
  let code := (← Eval.store).function f
  if args.length ≠ code.params.length then
    pure (.error (.functionArity code.params.length args.length))
  else do
    let scope ← Eval.onStore (StoreM.childScope code.scope)
    Eval.onStore (StoreM.bindParameters scope (bindings ++ code.params.zip args))
    Eval.withFrame code.path code.title (parts.block scope code.body >>= outsideLoops) >>=
      returnValue

/-- Calls a method on its receiver. -/
def callMethod (receiver : Receiver) (f : Ref .function) (args : List Value) : Eval Value := do
  let bindings ← Eval.onStore (Evaluator.receiverBindings receiver f)
  parts.callFunction f args bindings

/-- Ends the initialization of an instance, and answers it. -/
def finish (this : Ref .inst) : Eval Value := Eval.answer do
  Eval.onStore (StoreM.finishInstance this)
  pure (.inst this)

/-- Makes an instance of a class and initializes it. -/
def construct (cls : Ref .cls) (args : List Value) : Eval Value := do
  let this ← Eval.onStore (StoreM.newInstance cls)
  let s ← Eval.store
  let init := s.findMethod? cls "__init__"
  let want := (init.map fun f => (s.function f).params.length).getD 0
  if args.length ≠ want then pure (.error (.constructorArity args.length want))
  else
    match init with
    | none => finish this
    | some f => do
      let result ← parts.callMethod (.inst this) f args
      if result.isError then pure result else finish this

/-- Calls a bound method. -/
def callBound (r : Ref .bound) (args : List Value) : Eval Value := do
  match (← Eval.store).bound r with
  | .text m this => Eval.answer (Eval.onStore (m.call this args))
  | .list m this => Eval.answer (Eval.onStore (m.call this args))
  | .method this f => parts.callMethod (.inst this) f args
  | .classMethod cls f => parts.callMethod (.cls cls) f args
  | .super _ _ => pure (.error (.notCallable "super"))

/-- Calls a value. -/
def apply (callee : Value) (args : List Value) : Eval Value := do
  match callee with
  | .function f => parts.callFunction f args []
  | .bound r => parts.callBound r args
  | .cls r => parts.construct r args
  | .builtin b => Eval.answer (Eval.onWorld (b.call args))
  | v => return .error (.notCallable ((← Eval.store).label v))

/-- The walk through a value. An instance is walked through what its method `__iter__`
answers. -/
def iterate (v : Value) : Eval (Except Value Iteration) := do
  let s ← Eval.store
  match s.iteration? v, v with
  | some walk, _ => pure (.ok walk)
  | none, .inst r =>
    match s.findMethod? (s.inst r).cls "__iter__" with
    | some f => do
      let produced ← parts.callMethod (.inst r) f []
      if produced.isError then pure (.error produced) else parts.walk produced
    | none => pure (.error (.error (.notIterable (s.label v))))
  | none, v => pure (.error (.error (.notIterable (s.label v))))

/-! ### Imports -/

/-- Loads the module that a script calls by `name`, unless it is loaded already. -/
def load (host : Host) (name : String) : Eval Value := do
  let path ← Eval.orCrash (Path.ofModuleName host.files.cwd name)
  if !host.files.isFile path then pure (.error (.moduleNotFound name))
  else
    match (← get).world.cache.find? path.text with
    | some r => pure (.module r)
    | none => do
      Eval.info ["Loading", path.text]
      match ← Eval.attempt (Eval.readProgram host path.text) with
      | .error problem => pure problem
      | .ok p => do
        let r ← Eval.newCachedModule path.text
        let scope := ((← Eval.store).module r).scope
        let result ← Eval.withModule r (Eval.withFrame path.text "<module>" (parts.program scope p))
        if result.isError then pure result else pure (.module r)

/-! ### Expressions -/

/-- Evaluates the pairs of a dictionary into the entries that there are already. A key that
cannot be one is refused before its value is evaluated. -/
def entries (parts : Direct) (scope : Ref .scope) (acc : Dict) :
    List (Expr × Expr) → Eval (Except Value Dict)
  | [] => pure (.ok acc)
  | (k, v) :: rest => do
    let key ← parts.expr scope k
    if key.isError then pure (.error key)
    else do
      Eval.orCrash key.encode
      match key.hashKey? with
      | none => return .error (.error (.unhashable ((← Eval.store).label key)))
      | some hash => do
        let value ← parts.expr scope v
        if value.isError then pure (.error value)
        else parts.entries scope (acc.insert hash (key, value)) rest

/-- Evaluates the right operand of a short-circuit operator if it matters. The answer is a boolean
or a fault. -/
def shortCircuit (scope : Ref .scope) (op : ShortCircuit) (lhs rhs : Expr) : Eval Value := do
  let left ← parts.expr scope lhs
  if left.isError then pure left
  else do
    let known := (← Eval.store).truth left
    if known = (op = .either) then pure (.bool known)
    else do
      let right ← parts.expr scope rhs
      if right.isError then pure right
      else return .bool ((← Eval.store).truth right)

/-- Evaluates an expression. Modules come from the files of the host. -/
def evalExpr (host : Host) (scope : Ref .scope) : Expr → Eval Value
  | .literal l => Eval.orCrash l.value
  | .name x => Eval.answer (Evaluator.name scope x)
  | .list es => do
    match ← parts.exprs scope es with
    | .error problem => pure problem
    | .ok elements => return .list (← Eval.onStore (StoreM.newList elements))
  | .dict pairs => do
    match ← parts.entries scope .empty pairs with
    | .error problem => pure problem
    | .ok d => return .dict (← Eval.onStore (StoreM.newDict d))
  | .function f => do
    return .function (← Evaluator.closure scope none f)
  | .unary op e => do
    let v ← parts.expr scope e
    if v.isError then pure v else Eval.answer (Eval.askStore fun s => op.apply s v)
  | .binary op lhs rhs => do
    let left ← parts.expr scope lhs
    if left.isError then pure left
    else do
      let right ← parts.expr scope rhs
      if right.isError then pure right
      else Eval.answer (Eval.askStore fun s => op.apply s left right)
  | .shortCircuit op lhs rhs => parts.shortCircuit scope op lhs rhs
  | .call callee args => do
    let f ← parts.expr scope callee
    if f.isError then pure f
    else
      match ← parts.exprs scope args with
      | .error problem => pure problem
      | .ok vs => parts.apply f vs
  | .item subject index => do
    let v ← parts.expr scope subject
    if v.isError then pure v
    else do
      let i ← parts.expr scope index
      if i.isError then pure i
      else do
        Eval.orCrash (i.encodeIndex v)
        Eval.answer (Eval.askStore fun s => s.item v i)
  | .attr subject x => do
    let v ← parts.expr scope subject
    if v.isError then pure v else Eval.answer (Eval.onStore (StoreM.getAttribute v x))
  | .load path => do
    let name ← parts.expr scope path
    if name.isError then pure name
    else
      match name with
      | .str p => do parts.load host (← Eval.orCrash p.encode)
      | v => return .error (.wrongArgument ((← Eval.store).label v))

end Wei.Direct
