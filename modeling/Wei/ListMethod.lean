import Wei.Argument
import Wei.Equality
import Wei.Position

/-!
The methods of lists. All but `pop` answer the list itself.
-/

namespace Wei.ListMethod

/-- What a method makes of the elements of the list, and what it answers instead of the list
itself. -/
structure Change where
  elements : List Value
  answer : Option Value

/-- Takes out the element at a position, the last one if no position is given. -/
def popped (elements : List Value) (position : Option Int) : Except Fault Change :=
  if elements.isEmpty then .error .popFromEmpty
  else
    match Position.index? (position.getD (-1)) elements.length with
    | some k => .ok ⟨elements.eraseIdx k, some (elements.getD k .null)⟩
    | none => .error .popRange

/-- Takes out the first element that equals a value. -/
def removed (s : Store) (elements : List Value) (value : Value) : Except Fault Change :=
  match elements.findIdx? (s.equal · value) with
  | some k => .ok ⟨elements.eraseIdx k, none⟩
  | none => .error .notInList

/-- What a method does to a list with these elements. -/
def change (s : Store) (elements args : List Value) : ListMethod → Except Fault Change
  | .append =>
    if args.isEmpty then .error .nothingToAppend else .ok ⟨elements ++ args, none⟩
  | .extend => do
    Argument.exactly 1 args
    let more ← Argument.list? s args 0
    pure ⟨elements ++ (more.map s.list).getD [], none⟩
  | .insert => do
    Argument.exactly 2 args
    let position ← Argument.int? s args 0
    let k := (Position.clamp (position.getD 0) elements.length).toNat
    pure ⟨elements.insertIdx k (args.getD 1 .null), none⟩
  | .pop => do
    Argument.between 0 1 args
    popped elements (← Argument.int? s args 0)
  | .remove => do
    removed s elements (← Argument.only args)
  | .reverse => do
    Argument.exactly 0 args
    pure ⟨elements.reverse, none⟩

/-- Calls a method of a list. -/
def call (m : ListMethod) (this : Ref .list) (args : List Value) : StoreM Value :=
  fun s =>
    match change s (s.list this) args m with
    | .error f => .error f s
    | .ok c => .ok (c.answer.getD (.list this)) (s.setList this c.elements)

end Wei.ListMethod
