import Wei.Iteration
import Wei.Traceback
import Wei.World

/-!
The state of a session while it evaluates: the world, which is all that scripts can observe, and
what serves the host.

An evaluation answers a value or exits early: with a fault, on the way to the construct that
takes a `return`, `break` or `continue`, or because the host cannot go on. Whatever happens, the
state reached by then is kept.
-/

namespace Wei

/-- The state of a session: the world, the module whose text is running, the call stack, the
report, what has been written to standard error, the texts that have been parsed, with their
paths, latest last, and the source files that tracebacks have looked at. -/
structure Machine where
  world : World
  module : Option (Ref .module)
  stack : CallStack
  report : Report
  err : String
  parsed : List (String × String)
  sources : SourceMemory
  deriving Inhabited

/-- An evaluation. -/
abbrev Eval := EStateM Exit Machine

/-- What the host makes of a program text. -/
inductive Parsed where
  | program (p : Program)
  | syntaxError (message : String)
  | crash (c : Crash)

/-- What a session gets from its host: files, a parser that is given a text and its path, and a
reader for the lines of a text. -/
structure Host where
  files : FileTree
  parse : String → String → Parsed
  reader : LineReader

namespace Machine

/-- The path of the module whose text is running. -/
def modulePath (m : Machine) : String :=
  match m.module with
  | none => ""
  | some r => (m.world.store.module r).path

/-- Keeps a fault, with the call stack as it is now, if it is the first. -/
def recordFault (m : Machine) (f : Fault) : Machine :=
  { m with report := m.report.record f m.stack.snapshot }

/-- Keeping a fault again changes nothing. -/
theorem recordFault_recordFault (m : Machine) (f : Fault) :
    (m.recordFault f).recordFault f = m.recordFault f := by
  unfold recordFault Report.record
  cases h : m.report.fault with
  | none => rfl
  | some g =>
    dsimp only
    rw [h]

end Machine

namespace Eval

/-- Ends the evaluation with a fault. -/
def fault {α : Type} (f : Fault) : Eval α := throw (.fault f)

/-- The store as it is now. -/
def store : Eval Store := fun m => .ok m.world.store m

/-- Does something to the world. -/
def onWorld {α : Type} (x : WorldM α) : Eval α
  | ⟨world, module, stack, report, err, parsed, sources⟩ =>
    match x world with
    | .ok a world => .ok a ⟨world, module, stack, report, err, parsed, sources⟩
    | .error e world => .error e ⟨world, module, stack, report, err, parsed, sources⟩

/-- Does something to the store. -/
def onStore {α : Type} (x : StoreM α) : Eval α
  | ⟨⟨store, cache, out⟩, module, stack, report, err, parsed, sources⟩ =>
    match x store with
    | .ok a store => .ok a ⟨⟨store, cache, out⟩, module, stack, report, err, parsed, sources⟩
    | .error f store =>
      .error (.fault f) ⟨⟨store, cache, out⟩, module, stack, report, err, parsed, sources⟩

theorem onWorld_eq {α : Type} (x : WorldM α) (m : Machine) :
    onWorld x m = match x m.world with
      | .ok a world => .ok a { m with world := world }
      | .error e world => .error e { m with world := world } := rfl

theorem onStore_eq {α : Type} (x : StoreM α) (m : Machine) :
    onStore x m = match x m.world.store with
      | .ok a store => .ok a { m with world := { m.world with store := store } }
      | .error f store =>
        .error (.fault f) { m with world := { m.world with store := store } } := rfl

/-- Asks the store. -/
def askStore {α : Type} (x : Store → Except Fault α) : Eval α :=
  fun m =>
    match x m.world.store with
    | .ok a => .ok a m
    | .error f => .error (.fault f) m

/-- Says on which line the innermost frame is, if somebody said. -/
def atLine (line : Int) : Eval Unit :=
  fun m => .ok () (if line = 0 then m else { m with stack := m.stack.setLine line })

/-- Tells the console of something, if the report is verbose. -/
def info (words : List String) : Eval Unit :=
  fun m => .ok () { m with err := m.err ++ m.report.info words }

/-- Runs something inside of a new frame, which is taken off again whatever happens. -/
def withFrame {α : Type} (path function : String) (x : Eval α) : Eval α :=
  fun m =>
    match x { m with stack := m.stack.push path function } with
    | .ok a m => .ok a { m with stack := m.stack.pop }
    | .error e m => .error e { m with stack := m.stack.pop }

/-- Runs something as the text of a module. The module that was running before runs again
afterwards, whatever happens. -/
def withModule {α : Type} (r : Ref .module) (x : Eval α) : Eval α :=
  fun m =>
    let previous := m.module
    match x { m with module := some r } with
    | .ok a m => .ok a { m with module := previous }
    | .error e m => .error e { m with module := previous }

/-- Keeps the fault in which something ends. -/
def recording {α : Type} (x : Eval α) : Eval α :=
  fun m =>
    match x m with
    | .error (.fault f) m => .error (.fault f) (m.recordFault f)
    | r => r

/-- Takes a value that is being returned. -/
def takingReturn (x : Eval Value) : Eval Value :=
  fun m =>
    match x m with
    | .error (.returning v) m => .ok v m
    | r => r

/-- Ends in a fault that is kept at once. -/
def stray {α : Type} (signal : String) : Eval α := recording (fault (.strayExit signal))

/-- Where no loop is around, `break` and `continue` are faults. -/
def outsideLoops {α : Type} (x : Eval α) : Eval α :=
  fun m =>
    match x m with
    | .error .breaking m => stray "break_value" m
    | .error .continuing m => stray "continue_value" m
    | r => r

/-- Does something to the memory of source files. -/
def onSources {α : Type} (x : SourceM α) : Eval α :=
  fun m =>
    match x m.sources with
    | .ok a sources => .ok a { m with sources := sources }
    | .error c sources => .error (.crash c) { m with sources := sources }

/-- Runs the body of a loop once. The answer is whether the loop goes on. -/
def loopRound {α : Type} (x : Eval α) : Eval Bool :=
  fun m =>
    match x m with
    | .ok _ m => .ok true m
    | .error .continuing m => .ok true m
    | .error .breaking m => .ok false m
    | .error e m => .error e m

/-- Runs rounds of a loop for as long as it goes on, `rounds` of them at most. -/
def repeating (round : Eval Bool) : Nat → Eval Unit
  | 0 => throw .unfinished
  | rounds + 1 => do if ← round then repeating round rounds

/-- Runs a body for each step of a walk for as long as it goes on, `rounds` times at most. The
next step is looked for when the body has run. -/
def walking (body : Value × Value → Eval Bool) : Nat → Iteration → Eval Unit
  | 0, _ => throw .unfinished
  | rounds + 1, walk => do
    match walk.next? (← store) with
    | none => pure ()
    | some (step, rest) => do if ← body step then walking body rounds rest

end Eval

end Wei
