import Wei.Store

/-!
Iteration. Each step brings two values. A list is walked live by index: what happens to it during
the walk is seen, and its length is looked at before each step. A string or a dictionary is
walked as it was at the start.
-/

namespace Wei

/-- What is left of a walk. -/
inductive Iteration where
  | fixed (rest : List (Value × Value))
  | live (r : Ref .list) (next : Nat)
  deriving Inhabited

/-- The walk through a value; none if values of its type cannot be walked. -/
def Store.iteration? (s : Store) : Value → Option Iteration
  | .str t => some (.fixed (t.zipIdx.map fun e => (.int (Int64.ofNat e.2), .str [e.1])))
  | .list r => some (.live r 0)
  | .dict r => some (.fixed (s.dict r).values)
  | _ => none

namespace Iteration

/-- The next step of a walk and what is left after it; none at the end. -/
def next? (s : Store) : Iteration → Option ((Value × Value) × Iteration)
  | .fixed [] => none
  | .fixed (step :: rest) => some (step, .fixed rest)
  | .live r next =>
    match (s.list r)[next]? with
    | some value => some ((.int (Int64.ofNat next), value), .live r (next + 1))
    | none => none

/-- All steps that are left, if nothing changes in between. -/
def steps (s : Store) : Iteration → List (Value × Value)
  | .fixed rest => rest
  | .live r next =>
    ((s.list r).zipIdx.drop next).map fun e => (.int (Int64.ofNat e.2), e.1)

end Iteration

end Wei
