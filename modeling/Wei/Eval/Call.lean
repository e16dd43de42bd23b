import Wei.Builtin
import Wei.Eval.Evaluator
import Wei.ListMethod
import Wei.Instance
import Wei.TextMethod

/-!
Calls. A function of a script runs in a new scope inside of the one in which it was made. A
method finds its receiver there under a name of its own, and `super` beside it.
-/

namespace Wei.Evaluator

variable (parts : Evaluator)

/-- What a function calls its receiver. -/
def ownBinding : Receiver → String × Value
  | .inst r => ("this", .inst r)
  | .cls r => ("cls", .cls r)

/-- What a function finds in its scope about its receiver. -/
def receiverBindings (receiver : Receiver) (f : Ref .function) :
    StoreM (List (String × Value)) := do
  let own := ownBinding receiver
  match ((← get).function f).owner with
  | none => pure [own]
  | some owner => return [own, ("super", .bound (← StoreM.newBound (.super owner receiver)))]

/-- Calls a function of a script, with bindings for its receiver. The answer is what it returns,
or else null. -/
def callFunction (f : Ref .function) (args : List Value) (bindings : List (String × Value)) :
    Eval Value := do
  let code := (← Eval.store).function f
  if args.length ≠ code.params.length then
    Eval.fault (.functionArity code.params.length args.length)
  else do
    let scope ← Eval.onStore (StoreM.childScope code.scope)
    Eval.onStore (StoreM.bindParameters scope (bindings ++ code.params.zip args))
    Eval.takingReturn (Eval.withFrame code.path code.title (Eval.outsideLoops do
      let _ ← parts.block scope code.body
      pure .null))

/-- Calls a method on its receiver. -/
def callMethod (receiver : Receiver) (f : Ref .function) (args : List Value) : Eval Value := do
  let bindings ← Eval.onStore (receiverBindings receiver f)
  parts.callFunction f args bindings

/-- Makes an instance of a class and initializes it. -/
def construct (cls : Ref .cls) (args : List Value) : Eval Value := do
  let this ← Eval.onStore (StoreM.newInstance cls)
  let s ← Eval.store
  let init := s.findMethod? cls "__init__"
  let want := (init.map fun f => (s.function f).params.length).getD 0
  if args.length ≠ want then Eval.fault (.constructorArity args.length want)
  else do
    match init with
    | none => pure ()
    | some f => do
      let _ ← parts.callMethod (.inst this) f args
    Eval.onStore (StoreM.finishInstance this)
    pure (.inst this)

/-- Calls a bound method. -/
def callBound (r : Ref .bound) (args : List Value) : Eval Value := do
  match (← Eval.store).bound r with
  | .text m this => Eval.onStore (m.call this args)
  | .list m this => Eval.onStore (m.call this args)
  | .method this f => parts.callMethod (.inst this) f args
  | .classMethod cls f => parts.callMethod (.cls cls) f args
  | .super _ _ => Eval.fault (.notCallable "super")

/-- Calls a value. -/
def apply (callee : Value) (args : List Value) : Eval Value := do
  match callee with
  | .function f => parts.callFunction f args []
  | .bound r => parts.callBound r args
  | .cls r => parts.construct r args
  | .builtin b => Eval.onWorld (b.call args)
  | v => Eval.fault (.notCallable ((← Eval.store).label v))

/-- The walk through a value. An instance is walked through what its method `__iter__`
answers. -/
def iterate (v : Value) : Eval Iteration := do
  let s ← Eval.store
  match s.iteration? v, v with
  | some walk, _ => pure walk
  | none, .inst r =>
    match s.findMethod? (s.inst r).cls "__iter__" with
    | some f => do parts.walk (← parts.callMethod (.inst r) f [])
    | none => Eval.fault (.notIterable (s.label v))
  | none, v => Eval.fault (.notIterable (s.label v))

end Wei.Evaluator
