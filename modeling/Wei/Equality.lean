import Wei.Store

/-!
Equality of values. Integers, strings, lists and dictionaries are compared by content and all
else by identity. Two containers that were already set against each other count as equal, so that
comparing containers that hold themselves comes to an end.
-/

namespace Wei.Store

/-- The values under the same keys, if two dictionaries have the same keys. -/
def sharedKeys? (a b : Dict) : Option (List (Value × Value)) :=
  if b.keys.all a.contains then
    a.entries.mapM fun e => (b.find? e.1).map fun f => (e.2.2, f.2)
  else none

/-- The pairs of values that must be equal for two different values to be equal; none if the two
are unequal whatever they hold. -/
def facing? (s : Store) : Value → Value → Option (List (Value × Value))
  | .list a, .list b =>
    if (s.list a).length = (s.list b).length then some ((s.list a).zip (s.list b)) else none
  | .dict a, .dict b => sharedKeys? (s.dict a) (s.dict b)
  | _, _ => none

/-- Why a comparison does not find two values equal. -/
inductive Mismatch where
  /-- There are two values in them that differ. -/
  | differ
  /-- The comparison went deeper than it may. -/
  | tooDeep
  deriving DecidableEq, Repr

/-- Compares two values, where the pairs `seen` count as equal. The answer is the pairs seen by
then; the comparison ends as soon as two values differ. Containers are entered at most `depth`
deep. -/
def meet (s : Store) : Nat → List (Value × Value) → Value → Value →
    Except Mismatch (List (Value × Value))
  | depth, seen, a, b =>
    if a = b ∨ (a, b) ∈ seen then .ok seen
    else
      match s.facing? a b, depth with
      | none, _ => .error .differ
      | some _, 0 => .error .tooDeep
      | some pairs, depth + 1 =>
        pairs.foldlM (fun seen p => s.meet depth seen p.1 p.2) ((a, b) :: seen)

/-- How many pairs of containers there are; a comparison enters none of them twice. -/
def containerPairs (s : Store) : Nat := s.lists.size * s.lists.size + s.dicts.size * s.dicts.size

/-- Are the two values equal? The limit of a session bounds the depth of evaluation only, so
containers are compared however deep they nest. A host that puts one limit on all of its recursion
answers on containers that nest too deep for it that the run went too deep; that is left out
here. -/
def equal (s : Store) (a b : Value) : Bool := (s.meet (s.containerPairs + 1) [] a b).isOk

end Wei.Store
