import Wei.Module

/-!
What scripts can observe and change: the store, the modules that have been loaded, and what has
been printed.
-/

namespace Wei

/-- What scripts can observe and change. -/
structure World where
  store : Store
  cache : ModuleCache
  out : String
  deriving Inhabited

/-- Why an evaluation answers no value. -/
inductive Exit where
  /-- The script failed. -/
  | fault (f : Fault)
  /-- A value is on its way to the end of the function that returns it. -/
  | returning (v : Value)
  /-- The loop around this is to end. -/
  | breaking
  /-- The loop around this is to go on with its next round. -/
  | continuing
  /-- The host failed. -/
  | crash (c : Crash)
  /-- The evaluation went deeper than it may. -/
  | tooDeep
  /-- A loop went on for longer than it may. -/
  | unfinished
  deriving DecidableEq, Repr, Inhabited

/-- An operation on the world, which may exit early. -/
abbrev WorldM := EStateM Exit World

end Wei
