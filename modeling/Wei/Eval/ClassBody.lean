import Wei.Eval.Expression

/-!
Definitions of classes. The declarations in the body of a class run one after the other in the
scope around the class, and each adds to the class.
-/

namespace Wei.Evaluator

variable (parts : Evaluator)

/-- The class from which a new class called `x` descends. -/
def parentClass (scope : Ref .scope) (x : String) : Option Expr → Eval (Ref .cls)
  | none => pure Store.object
  | some e => do
    match ← parts.expr scope e with
    | .cls r => pure r
    | v => Eval.fault (.cannotInherit x ((← Eval.store).label v))

/-- A declaration in the body of a class. -/
def declareMember (scope : Ref .scope) (cls : Ref .cls) : Action → Eval Value
  | .member x value constant classLevel => do
    let v ← parts.expr? scope value
    if classLevel then Eval.onStore (StoreM.addClassMember cls x (v.getD .null) constant)
    else Eval.onStore (StoreM.addMember cls x v constant)
    pure .null
  | .method f classLevel => do
    let r ← closure scope (some cls) f
    if classLevel then Eval.onStore (StoreM.addClassMethod cls (f.name.getD "") r)
    else Eval.onStore (StoreM.addMethod cls (f.name.getD "") r)
    pure .null
  | _ => throw (.crash .misplacedStatement)

/-- The declarations in the body of a class, one after the other. -/
def classBody (parts : Evaluator) (scope : Ref .scope) (cls : Ref .cls) : List Stmt → Eval Value
  | [] => pure .null
  | s :: rest => do
    Eval.atLine s.line
    let _ ← Eval.recording (parts.declareMember scope cls s.action)
    parts.classBody scope cls rest

/-- The definition of a class. Its name is bound first, so that the body can refer to it. -/
def defineClass (scope : Ref .scope) (x : String) (parent : Option Expr) (body : List Stmt) :
    Eval Value := do
  let above ← parts.parentClass scope x parent
  let cls ← Eval.onStore (StoreM.newClass (Class.blank x (some above)))
  Eval.onStore (StoreM.declare scope x (.cls cls) true)
  parts.classBody scope cls body

end Wei.Evaluator
