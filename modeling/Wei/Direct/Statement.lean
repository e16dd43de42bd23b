import Wei.Direct.Expression
import Wei.Eval.Statement

/-!
Definitions of classes and statements in direct style, and the evaluator of a given depth. A
`return` answers the value on its way, which only the call around it takes; `break` and `continue`
answer what only the loop around them takes.
-/

namespace Wei.Direct

variable (parts : Direct)

/-! ### Definitions of classes -/

/-- The class from which a new class called `x` descends. -/
def parentClass (scope : Ref .scope) (x : String) : Option Expr → Eval (Except Value (Ref .cls))
  | none => pure (.ok Store.object)
  | some e => do
    let parent ← parts.expr scope e
    if parent.isError then pure (.error parent)
    else
      match parent with
      | .cls r => pure (.ok r)
      | v => return .error (.error (.cannotInherit x ((← Eval.store).label v)))

/-- A declaration in the body of a class. -/
def declareMember (scope : Ref .scope) (cls : Ref .cls) : Action → Eval Value
  | .member x value constant classLevel => do
    match ← parts.expr? scope value with
    | .error problem => pure problem
    | .ok v =>
      if classLevel then Eval.change (StoreM.addClassMember cls x (v.getD .null) constant)
      else Eval.change (StoreM.addMember cls x v constant)
  | .method f classLevel => do
    let r ← Evaluator.closure scope (some cls) f
    if classLevel then Eval.change (StoreM.addClassMethod cls (f.name.getD "") r)
    else Eval.change (StoreM.addMethod cls (f.name.getD "") r)
  | _ => throw (.crash .misplacedStatement)

/-- The declarations in the body of a class, one after the other, up to a fault. -/
def classBody (parts : Direct) (scope : Ref .scope) (cls : Ref .cls) : List Stmt → Eval Value
  | [] => pure .null
  | s :: rest => do
    Eval.atLine s.line
    let result ← parts.declareMember scope cls s.action >>= keeping
    if result.isError then pure result else parts.classBody scope cls rest

/-- The definition of a class. Its name is bound first, so that the body can refer to it. -/
def defineClass (scope : Ref .scope) (x : String) (parent : Option Expr) (body : List Stmt) :
    Eval Value := do
  match ← parts.parentClass scope x parent with
  | .error problem => pure problem
  | .ok above => do
    let cls ← Eval.onStore (StoreM.newClass (Class.blank x (some above)))
    let problem ← Eval.change (StoreM.declare scope x (.cls cls) true)
    if problem.isError then pure problem else parts.classBody scope cls body

/-! ### Statements -/

/-- Assigns a value to a place. The parts of the place are evaluated after the value. -/
def assign (scope : Ref .scope) (value : Value) : Target → Eval Value
  | .name x => Eval.change (StoreM.assign scope x value)
  | .item subject index => do
    let v ← parts.expr scope subject
    if v.isError then pure v
    else do
      let i ← parts.expr scope index
      if i.isError then pure i
      else do
        Eval.orCrash (i.encodeIndex v)
        Eval.change (StoreM.setItem v i value)
  | .attr subject x => do
    let v ← parts.expr scope subject
    if v.isError then pure v else Eval.change (StoreM.setAttribute v x value)
  | .loop subject address => do
    let v ← parts.expr scope subject
    if v.isError then pure v else pure (.error (.notAPlace (kindDisplay address "ForIn")))
  | .invalid => throw (.crash .invalidTarget)

/-- Executes the block of the first branch whose condition holds. -/
def branches (parts : Direct) (scope : Ref .scope) (otherwise : Option (List Stmt)) :
    List (Expr × List Stmt) → Eval Value
  | [] =>
    match otherwise with
    | none => pure .null
    | some body => parts.block scope body
  | (condition, body) :: rest => do
    let test ← parts.expr scope condition
    if test.isError then pure test
    else do
      if (← Eval.store).truth test then parts.block scope body
      else parts.branches scope otherwise rest

/-- Runs a loop on what its body has answered: a value that is being returned and a fault are passed
on, `break` ends the loop, and with anything else it goes on. -/
def afterRound (result : Value) (rest : Eval Value) : Eval Value :=
  match result with
  | .returned v => pure (.returned v)
  | .error f => pure (.error f)
  | .breaking => pure .null
  | _ => rest

/-- Runs a loop for as long as its condition holds, `rounds` rounds at most. -/
def whileLoop (scope : Ref .scope) (condition : Expr) (body : List Stmt) : Nat → Eval Value
  | 0 => throw .unfinished
  | rounds + 1 => do
    let test ← parts.expr scope condition
    if test.isError then pure test
    else do
      if (← Eval.store).truth test then do
        let result ← parts.block scope body
        afterRound result (whileLoop scope condition body rounds)
      else pure .null

/-- Runs a loop over the steps of a walk, `rounds` rounds at most. The targets are bound in a scope
of their own, inside of which the body runs. The next step is looked for when the body has run. -/
def eachLoop (scope : Ref .scope) (targets : List String) (body : List Stmt) (constant : Bool) :
    Nat → Iteration → Eval Value
  | 0, _ => throw .unfinished
  | rounds + 1, walk => do
    match walk.next? (← Eval.store) with
    | none => pure .null
    | some (step, rest) =>
      if targets.length ≠ 2 then pure (.error (.unpackMismatch targets.length 2))
      else do
        let own ← Eval.onStore (StoreM.childScope scope)
        let problem ← Eval.change
          (StoreM.declareAll own constant (targets.zip [step.1, step.2]))
        if problem.isError then pure problem
        else do
          let result ← parts.block own body
          afterRound result (eachLoop scope targets body constant rounds rest)

/-- Lets others see names of the module whose text is running. -/
def exportNames (names : List String) : Eval Value := do
  match (← get).module with
  | none => pure (.error .exportOutsideModule)
  | some r => Eval.change (StoreM.exportNames r names)

/-- Does what a statement says. A loop runs `rounds` rounds at most. -/
def evalAction (rounds : Nat) (scope : Ref .scope) : Action → Eval Value
  | .block body => parts.block scope body
  | .declare x value constant => do
    match ← parts.expr? scope value with
    | .error problem => pure problem
    | .ok v => Eval.change (StoreM.declare scope x (v.getD .null) constant)
  | .assign target value => do
    let v ← parts.expr scope value
    if v.isError then pure v else parts.assign scope v target
  | .eval e => parts.expr scope e
  | .ret value => do
    match ← parts.expr? scope value with
    | .error problem => pure problem
    | .ok v => pure (.returned (v.getD .null))
  | .branch bs otherwise => parts.branches scope otherwise bs
  | .loop condition body => parts.whileLoop scope condition body rounds
  | .each targets subject body constant => do
    let v ← parts.expr scope subject
    if v.isError then pure v
    else
      match ← parts.iterate v with
      | .error problem => pure problem
      | .ok walk => parts.eachLoop scope targets body constant rounds walk
  | .breakLoop => pure .breaking
  | .continueLoop => pure .continuing
  | .define f => do
    let r ← Evaluator.closure scope none f
    Eval.change (StoreM.declare scope (f.name.getD "") (.function r) false)
  | .classDef x parent body => parts.defineClass scope x parent body
  | .member _ _ _ _ => throw (.crash .misplacedStatement)
  | .method _ _ => throw (.crash .misplacedStatement)
  | .exports names => exportNames names

/-- The evaluator that may go `depth` levels deep. The evaluator of the parts is made when a part
is evaluated. -/
def ofDepth (host : Host) (rounds : Nat) : Nat → Direct
  | 0 => exhausted
  | depth + 1 => {
      expr := fun scope e => (ofDepth host rounds depth).evalExpr host scope e
      stmt := fun scope s => (ofDepth host rounds depth).evalAction rounds scope s.action
      walk := fun v => (ofDepth host rounds depth).iterate v }

end Wei.Direct
