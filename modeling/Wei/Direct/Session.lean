import Wei.Direct.Statement
import Wei.Session

/-!
What a host asks of a session, in direct style. A fault is an answer like any other, so the host
looks at the answer to see whether there is one to complain about.
-/

namespace Wei.Direct

variable (parts : Direct)

/-- Evaluates a node. -/
def node (scope : Ref .scope) : Node → Eval Value
  | .program p => parts.program scope p
  | .stmt s => parts.execute scope s
  | .expr e => parts.expr scope e

/-- What a host is answered: a value that is being returned is the answer, a stray exit is a fault,
and the report keeps the fault. -/
def settle : Value → Eval Value
  | .returned v => pure v
  | .breaking => Eval.keep (.strayExit "break_value")
  | .continuing => Eval.keep (.strayExit "continue_value")
  | .error f => Eval.keep f
  | v => pure v

/-- Running too deep is a fault. -/
def boundingDepth (x : Eval Value) : Eval Value :=
  fun m =>
    match x m with
    | .error .tooDeep m => Eval.keep .tooDeep m
    | r => r

/-- **Evaluates a node for the host**, in direct style. -/
def evaluate (host : Host) (limits : Limits) (n : Node) (scope : Ref .scope) : Eval Value := do
  Eval.resetReport
  Eval.atBottom (boundingDepth ((ofDepth host limits.rounds limits.depth).node scope n >>= settle))

/-- Reads, parses and evaluates the file of a main program. -/
def mainProgram (host : Host) (limits : Limits) (raw : String) : Eval Value := do
  match ← Eval.orCrash (host.files.readText raw) with
  | .error refusal => Eval.answer (Eval.faultNowhere (.unreadableModule raw refusal.reason))
  | .ok text => do
    let scope ← Eval.openModule host raw
    match ← Eval.parse host text (← get).modulePath with
    | .crash c => throw (.crash c)
    | .syntaxError message => Eval.answer (Eval.faultNowhere (.unparsableModule raw message))
    | .program p => evaluate host limits (.program p) scope

/-- **Runs the file of a main program**, and complains to the console if a fault is answered. -/
def runFile (host : Host) (limits : Limits) (raw : String) : Eval Value := do
  Eval.resetReport
  Eval.info ["Loading", raw]
  let result ← mainProgram host limits raw
  if result.isError then Eval.complain host
  pure result

end Wei.Direct
