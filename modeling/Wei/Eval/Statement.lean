import Wei.Eval.ClassBody
import Wei.Syntax.Display

/-!
What each statement does. Loops take their `break` and `continue`; everything else that is no
value passes through.
-/

namespace Wei.Evaluator

variable (parts : Evaluator)

/-- Assigns a value to a place. The parts of the place are evaluated after the value. -/
def assign (scope : Ref .scope) (value : Value) : Target → Eval Unit
  | .name x => Eval.onStore (StoreM.assign scope x value)
  | .item subject index => do
    let v ← parts.expr scope subject
    let i ← parts.expr scope index
    Eval.orCrash (i.encodeIndex v)
    Eval.onStore (StoreM.setItem v i value)
  | .attr subject x => do
    let v ← parts.expr scope subject
    Eval.onStore (StoreM.setAttribute v x value)
  | .loop subject address => do
    let _ ← parts.expr scope subject
    Eval.fault (.notAPlace (kindDisplay address "ForIn"))
  | .invalid => throw (.crash .invalidTarget)

/-- Executes the block of the first branch whose condition holds. -/
def branches (parts : Evaluator) (scope : Ref .scope) (otherwise : Option (List Stmt)) :
    List (Expr × List Stmt) → Eval Value
  | [] =>
    match otherwise with
    | none => pure .null
    | some body => parts.block scope body
  | (condition, body) :: rest => do
    let test ← parts.expr scope condition
    if (← Eval.store).truth test then parts.block scope body
    else parts.branches scope otherwise rest

/-- One round of a loop: the condition, and if it holds the body. The answer is whether the loop
goes on. -/
def whileRound (scope : Ref .scope) (condition : Expr) (body : List Stmt) : Eval Bool := do
  let test ← parts.expr scope condition
  if (← Eval.store).truth test then Eval.loopRound (parts.block scope body) else pure false

/-- One round of a loop over a subject: the targets are bound in a scope of their own, inside of
which the body runs. -/
def eachRound (scope : Ref .scope) (targets : List String) (body : List Stmt) (constant : Bool)
    (step : Value × Value) : Eval Bool := do
  if targets.length ≠ 2 then Eval.fault (.unpackMismatch targets.length 2)
  else do
    let own ← Eval.onStore (StoreM.childScope scope)
    Eval.onStore (StoreM.declareAll own constant (targets.zip [step.1, step.2]))
    Eval.loopRound (parts.block own body)

/-- Lets others see names of the module whose text is running. -/
def exportNames (names : List String) : Eval Unit := do
  match (← get).module with
  | none => Eval.fault .exportOutsideModule
  | some r => Eval.onStore (StoreM.exportNames r names)

/-- Does what a statement says. A loop runs `rounds` rounds at most. -/
def evalAction (rounds : Nat) (scope : Ref .scope) : Action → Eval Value
  | .block body => parts.block scope body
  | .declare x value constant => do
    let v ← parts.expr? scope value
    Eval.onStore (StoreM.declare scope x (v.getD .null) constant)
    pure .null
  | .assign target value => do
    let v ← parts.expr scope value
    parts.assign scope v target
    pure .null
  | .eval e => parts.expr scope e
  | .ret value => do
    let v ← parts.expr? scope value
    throw (.returning (v.getD .null))
  | .branch bs otherwise => parts.branches scope otherwise bs
  | .loop condition body => do
    Eval.repeating (parts.whileRound scope condition body) rounds
    pure .null
  | .each targets subject body constant => do
    let v ← parts.expr scope subject
    let walk ← parts.iterate v
    Eval.walking (parts.eachRound scope targets body constant) rounds walk
    pure .null
  | .breakLoop => throw .breaking
  | .continueLoop => throw .continuing
  | .define f => do
    let r ← closure scope none f
    Eval.onStore (StoreM.declare scope (f.name.getD "") (.function r) false)
    pure .null
  | .classDef x parent body => parts.defineClass scope x parent body
  | .member _ _ _ _ => throw (.crash .misplacedStatement)
  | .method _ _ => throw (.crash .misplacedStatement)
  | .exports names => do
    exportNames names
    pure .null

end Wei.Evaluator
