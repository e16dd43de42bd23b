import Wei.Eval.Depth

/-!
What a host does with a session: it makes modules current, has trees evaluated and files run, and
asks for the traceback of the last fault. What an evaluation answers to the host is a value or a
fault; exits do not get out, and running too deep is a fault.
-/

namespace Wei

/-- How deep an evaluation may go, and how many rounds a loop may run. -/
structure Limits where
  depth : Nat
  rounds : Nat
  deriving DecidableEq, Repr, Inhabited

/-- The limits of a session that asks for no others. -/
def Limits.standard : Limits := ⟨6000, Nat.pow 2 62⟩

/-- A session between two turns: the number of the cache that it uses, the module that is
current, the call stack, the report and the limits. -/
structure Session where
  cache : Nat
  module : Option (Ref .module)
  stack : CallStack
  report : Report
  limits : Limits
  deriving Inhabited

namespace Eval

/-! ### Modules of the host -/

/-- The module of a file: the one in the cache, else a new one. -/
def moduleOfFile (host : Host) (raw : String) : Eval (Ref .module) := do
  let path ← orCrash (Path.resolve host.files.cwd raw)
  match (← get).world.cache.find? path.text with
  | some r => pure r
  | none => newCachedModule path.text

/-- Makes a module current and answers its scope. Without a path the module is new and nobody
else can find it. -/
def openModule (host : Host) (raw : String) : Eval (Ref .scope) := do
  let r ← if raw.isEmpty then onStore (StoreM.newModuleAt "") else moduleOfFile host raw
  modify fun m => { m with module := some r }
  return ((← store).module r).scope

/-! ### Evaluation for the host -/

/-- Evaluates a node. -/
def node (parts : Evaluator) (scope : Ref .scope) : Node → Eval Value
  | .program p => parts.program scope p
  | .stmt s => parts.execute scope s
  | .expr e => parts.expr scope e

/-- Running too deep is a fault. -/
def boundingDepth {α : Type} (x : Eval α) : Eval α :=
  fun m =>
    match x m with
    | .error .tooDeep m => .error (.fault .tooDeep) m
    | r => r

/-- Runs something in the frame of the current module, if no frame is there yet. -/
def atBottom {α : Type} (x : Eval α) : Eval α :=
  fun m => if m.stack.frames.isEmpty then withFrame m.modulePath "<module>" x m else x m

/-- Forgets the last fault. -/
def resetReport : Eval Unit := modify fun m => { m with report := m.report.reset }

/-- Evaluates a node over an evaluator for its parts. A value that is being returned is the answer,
a stray exit is a fault, and the report keeps the fault. -/
def evaluateOver (parts : Evaluator) (n : Node) (scope : Ref .scope) : Eval Value := do
  resetReport
  atBottom (recording (boundingDepth (takingReturn (outsideLoops (node parts scope n)))))

/-- Evaluates a node within limits, with modules from a loader. -/
def evaluateBy (load : Loader) (limits : Limits) (n : Node) (scope : Ref .scope) : Eval Value :=
  evaluateOver (.ofDepth load limits.rounds limits.depth) n scope

/-- **Evaluates a node for the host**, with modules from the files of the host. -/
def evaluate (host : Host) (limits : Limits) (n : Node) (scope : Ref .scope) : Eval Value :=
  evaluateBy (Evaluator.load host) limits n scope

/-! ### Complaints -/

/-- The traceback of the last fault, which must be there. -/
def trace (host : Host) : Eval String := do
  let report := (← get).report
  onSources (SourceM.traceback host.reader host.files report)

/-- Writes the traceback of the last fault, if there is one, to standard error. -/
def complain (host : Host) : Eval Unit := do
  if (← get).report.ok then pure ()
  else do
    let text ← trace host
    modify fun m => { m with err := m.err ++ text ++ "\n" }

/-- Complains about the fault in which something ends. -/
def complaining {α : Type} (host : Host) (x : Eval α) : Eval α :=
  fun m =>
    match x m with
    | .error (.fault f) m =>
      match complain host m with
      | .ok _ m => .error (.fault f) m
      | .error e m => .error e m
    | r => r

/-! ### Main programs -/

/-- Ends in a fault that no frame has to do with. -/
def faultNowhere {α : Type} (f : Fault) : Eval α := do
  modify fun m => { m with report := m.report.record f [] }
  fault f

/-- Reads, parses and evaluates the file of a main program. -/
def mainProgram (host : Host) (limits : Limits) (raw : String) : Eval Value := do
  match ← orCrash (host.files.readText raw) with
  | .error refusal => faultNowhere (.unreadableModule raw refusal.reason)
  | .ok text => do
    let scope ← openModule host raw
    match ← parse host text (← get).modulePath with
    | .crash c => throw (.crash c)
    | .syntaxError message => faultNowhere (.unparsableModule raw message)
    | .program p => evaluate host limits (.program p) scope

/-- **Runs the file of a main program**, and complains to the console if that fails. -/
def runFile (host : Host) (limits : Limits) (raw : String) : Eval Value := do
  resetReport
  info ["Loading", raw]
  complaining host (mainProgram host limits raw)

end Eval

end Wei
