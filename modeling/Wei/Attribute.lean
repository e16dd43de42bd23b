import Wei.Instance
import Wei.Module
import Wei.Render

/-!
Attributes of values of every type.
-/

namespace Wei

/-- The attribute of a dictionary: the value under the name as a key, if that key is a string. -/
def Store.dictAttribute? (s : Store) (r : Ref .dict) (name : String) : Option Value :=
  match (s.dict r).find? ⟨"str", Digest.ofText name⟩ with
  | some (.str _, value) => some value
  | _ => none

/-- The attribute of a method of a built-in type: only its name. -/
def methodAttribute? (method name : String) : Option Value :=
  if name = "__name__" then some (.str method) else none

namespace StoreM

/-- The attribute of a value; none if it has none of this name. Asking for a method makes a new
bound method. -/
def attribute? (subject : Value) (name : String) : StoreM (Option Value) := do
  match subject with
  | .str t =>
    match TextMethod.ofName? name with
    | some m => pure (some (.bound (← newBound (.text m t))))
    | none => pure none
  | .list r =>
    match ListMethod.ofName? name with
    | some m => pure (some (.bound (← newBound (.list m r))))
    | none => pure none
  | .dict r => pure ((← get).dictAttribute? r name)
  | .cls r => classAttribute? r name
  | .inst r => instanceAttribute? r name
  | .bound r =>
    match (← get).bound r with
    | .text m _ => pure (methodAttribute? m.name name)
    | .list m _ => pure (methodAttribute? m.name name)
    | .super owner receiver => superAttribute? owner receiver name
    | .method _ _ => pure none
    | .classMethod _ _ => pure none
  | .module r => moduleAttribute? r name
  | .info r => return some (← infoAttribute r name)
  | _ => pure none

/-- The attribute of a value, which must have it. -/
def getAttribute (subject : Value) (name : String) : StoreM Value := do
  match ← attribute? subject name with
  | some value => pure value
  | none => throw (.noAttribute ((← get).label subject) name)

/-- Writes an attribute. The answer is false if values of this type have no attributes to
write. -/
def trySetAttribute (subject : Value) (name : String) (value : Value) : StoreM Bool := do
  match subject with
  | .cls r => setClassAttribute r name value; pure true
  | .inst r => setInstanceAttribute r name value; pure true
  | .bound r =>
    match (← get).bound r with
    | .super _ _ => throw .superIsReadOnly
    | _ => pure false
  | .module r => setModuleAttribute r name value; pure true
  | .info _ => throw (.infoIsReadOnly name)
  | _ => pure false

/-- Writes an attribute of a value whose type must have such. -/
def setAttribute (subject : Value) (name : String) (value : Value) : StoreM Unit := do
  unless ← trySetAttribute subject name value do
    throw (.cannotSetAttribute ((← get).label subject))

end StoreM

end Wei
