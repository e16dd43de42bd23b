import Wei.Class

/-!
Instances, and what `super` stands for in their methods. A new instance gets the members of the
whole line of its class. Construction ends when every member has a value; from then on its
constant members are fixed.
-/

namespace Wei

namespace StoreM

/-- A new instance, still to be initialized. -/
def newInstance (cls : Ref .cls) : StoreM (Ref .inst) := do
  newInst ⟨cls, (← get).flattenedMembers cls, true⟩

/-- The attribute of an instance: a member, else a method, else its class by the name
`__class__`. -/
def instanceAttribute? (r : Ref .inst) (name : String) : StoreM (Option Value) := do
  let s ← get
  let i := s.inst r
  match i.members.find? name with
  | some (some value) => pure (some value)
  | some none => throw (.pendingMember (s.cls i.cls).name name)
  | none =>
    match s.findMethod? i.cls name with
    | some f => pure (some (.bound (← newBound (.method r f))))
    | none => pure (if name = "__class__" then some (.cls i.cls) else none)

/-- Writes a member of an instance. -/
def setInstanceAttribute (r : Ref .inst) (name : String) (value : Value) : StoreM Unit :=
  fun s =>
    let i := s.inst r
    if !i.members.contains name then .error (.noAttribute (s.cls i.cls).name name) s
    else if !i.initializing && s.isConstantMember i.cls name then
      .error (.constantAttribute name) s
    else .ok () (s.setInst r { i with members := i.members.insert name (some value) })

/-- Ends the construction of an instance, all of whose members must have a value by now. -/
def finishInstance (r : Ref .inst) : StoreM Unit :=
  fun s =>
    let i := s.inst r
    match i.members.entries.find? (·.2.isNone) with
    | some e => .error (.pendingMember (s.cls i.cls).name e.1) s
    | none => .ok () (s.setInst r { i with initializing := false })

end StoreM

/-! ### The view of `super` -/

/-- What a class, seen through `super` by a receiver, says about a name. The methods of instances
show to instances only. -/
def Class.superSlot? (c : Class) (receiver : Receiver) (name : String) :
    Option (Ref .function ⊕ ClassSlot) :=
  let inherited := (c.slot? name).map .inr
  match receiver with
  | .inst _ => match c.methods.find? name with
    | some f => some (.inl f)
    | none => inherited
  | .cls _ => inherited

/-- The class to which `super` binds class methods. -/
def Store.receiverClass (s : Store) : Receiver → Ref .cls
  | .inst r => (s.inst r).cls
  | .cls r => r

/-- What the ancestors of `owner` say about a name, for a receiver. -/
def Store.findSuper? (s : Store) (owner : Ref .cls) (receiver : Receiver) (name : String) :
    Option (Ref .function ⊕ ClassSlot) :=
  match (s.cls owner).parent with
  | none => none
  | some parent => (s.lineage parent).findSome? fun c => (s.cls c).superSlot? receiver name

namespace StoreM

/-- An attribute seen through `super`: it is looked for above the class that defines the running
method, and never among the members of the instance. -/
def superAttribute? (owner : Ref .cls) (receiver : Receiver) (name : String) :
    StoreM (Option Value) := do
  let s ← get
  match s.findSuper? owner receiver name, receiver with
  | some (.inl f), .inst this => pure (some (.bound (← newBound (.method this f))))
  | some (.inr (.member b)), _ => pure (some b.value)
  | some (.inr (.method f)), _ =>
    pure (some (.bound (← newBound (.classMethod (s.receiverClass receiver) f))))
  | _, _ => pure none

end StoreM

end Wei
