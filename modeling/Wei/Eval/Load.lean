import Wei.Eval.Evaluator

/-!
Loading modules. A module is evaluated once. It is in the cache before its text runs, so that
modules that load each other find what there is of them so far.
-/

namespace Wei

namespace Eval

/-- The value, or the host's failure. -/
def orCrash {α : Type} : Except Crash α → Eval α
  | .ok a => pure a
  | .error c => throw (.crash c)

theorem orCrash_ok_bind {α β : Type} (a : α) (f : α → Eval β) : (orCrash (.ok a) >>= f) = f a :=
  rfl

/-- Has the host read a program text. -/
def parse (host : Host) (text path : String) : Eval Parsed :=
  fun m => .ok (host.parse text path) { m with parsed := m.parsed ++ [(path, text)] }

theorem parse_bind {α : Type} (host : Host) (text path : String) (f : Parsed → Eval α)
    (m : Machine) : (parse host text path >>= f) m =
      f (host.parse text path) { m with parsed := m.parsed ++ [(path, text)] } := rfl

/-- A new module that is in the cache under its path. -/
def newCachedModule (path : String) : Eval (Ref .module) := do
  let r ← onStore (StoreM.newModuleAt path)
  let cache ← orCrash ((← get).world.cache.add path r)
  modify fun m => { m with world := { m.world with cache := cache } }
  pure r

/-- Reads and parses the file at `path`. -/
def readProgram (host : Host) (path : String) : Eval Program := do
  match ← orCrash (host.files.readText path) with
  | .error refusal => fault (.unreadableModule path refusal.reason)
  | .ok text =>
    match ← parse host text path with
    | .crash c => throw (.crash c)
    | .syntaxError message => fault (.unparsableModule path message)
    | .program p => pure p

end Eval

namespace Evaluator

/-- Loads the module that a script calls by `name`, unless it is loaded already. -/
def load (host : Host) (parts : Evaluator) (name : String) : Eval Value := do
  let path ← Eval.orCrash (Path.ofModuleName host.files.cwd name)
  if !host.files.isFile path then Eval.fault (.moduleNotFound name)
  else
    match (← get).world.cache.find? path.text with
    | some r => pure (.module r)
    | none => do
      Eval.info ["Loading", path.text]
      let p ← Eval.readProgram host path.text
      let r ← Eval.newCachedModule path.text
      let scope := ((← Eval.store).module r).scope
      let _ ← Eval.withModule r (Eval.withFrame path.text "<module>" (parts.program scope p))
      pure (.module r)

end Evaluator

end Wei
