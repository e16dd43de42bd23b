import Wei.Arena
import Wei.Fault
import Wei.OrderedMap
import Wei.Syntax
import Wei.Value

/-!
The store: everything that scripts share and change. It has cells of eight kinds, and cells are
only ever added. An operation on the store may end in a fault, and leaves a store in any case.
-/

namespace Wei

/-- What a name is bound to in a scope, or a class-level slot. -/
structure Binding where
  value : Value
  constant : Bool
  deriving DecidableEq, Inhabited

/-- A lexical scope: its own bindings, and the scope around it. -/
structure Scope where
  bindings : OrderedMap String Binding
  outer : Option (Ref .scope)
  deriving Inhabited

/-- A function of a script: its code with the scope in which it was made, the path of the module
that was running then, and the class whose body defines it. -/
structure Closure where
  name : Option String
  params : List String
  body : List Stmt
  scope : Ref .scope
  path : String
  owner : Option (Ref .cls)
  deriving Inhabited

/-- The declaration of an instance member. Without a default the member is pending until it is
assigned. -/
structure Member where
  default : Option Value
  constant : Bool
  deriving DecidableEq, Inhabited

/-- A class. Only a root class has no parent. -/
structure Class where
  name : String
  parent : Option (Ref .cls)
  members : OrderedMap String Member
  methods : OrderedMap String (Ref .function)
  classMembers : OrderedMap String Binding
  classMethods : OrderedMap String (Ref .function)
  deriving Inhabited

/-- An instance. A member without a value is pending. While the instance is being initialized its
constant members can be written. -/
structure Instance where
  cls : Ref .cls
  members : OrderedMap String (Option Value)
  initializing : Bool
  deriving Inhabited

/-- What a method defined in a class can be called on. -/
inductive Receiver where
  | inst (r : Ref .inst)
  | cls (r : Ref .cls)
  deriving DecidableEq, Inhabited

/-- A method with its receiver. -/
inductive Bound where
  | text (method : TextMethod) (receiver : Text)
  | list (method : ListMethod) (receiver : Ref .list)
  | method (receiver : Ref .inst) (function : Ref .function)
  | classMethod (receiver : Ref .cls) (function : Ref .function)
  /-- What `super` stands for in a method that the class `owner` defines. -/
  | super (owner : Ref .cls) (receiver : Receiver)

/-- The blank of this type refers to no cell. -/
instance : Inhabited Bound := ⟨.text .count []⟩

/-- A module: the path of its file, its scope, and the names that others can see. -/
structure Module where
  path : String
  scope : Ref .scope
  exports : List String
  deriving Inhabited

/-- A dictionary: each entry keeps the key as it was last written, and the value. -/
abbrev Dict := OrderedMap HashKey (Value × Value)

/-- Everything that scripts share. The host decides at which address it puts the instance of each
number, which shows when instances print. -/
structure Store where
  scopes : Arena Scope
  lists : Arena (List Value)
  dicts : Arena Dict
  functions : Arena Closure
  classes : Arena Class
  instances : Arena Instance
  bounds : Arena Bound
  modules : Arena Module
  addresses : Nat → Nat
  deriving Inhabited

/-- A class without declarations. -/
def Class.blank (name : String) (parent : Option (Ref .cls)) : Class :=
  ⟨name, parent, .empty, .empty, .empty, .empty⟩

/-- The store before anything has run. It holds the class `object` and nothing else. -/
def Store.initial : Store where
  scopes := .empty
  lists := .empty
  dicts := .empty
  functions := .empty
  classes := Arena.empty.push (Class.blank "object" none)
  instances := .empty
  bounds := .empty
  modules := .empty
  addresses n := 0x7f0000000000 + 16 * n

/-- The class `object`, from which all classes of scripts descend. -/
def Store.object : Ref .cls := ⟨0⟩

namespace Store

/-! ### Reading -/

variable (s : Store)

def scope (r : Ref .scope) : Scope := s.scopes.get r.index
def list (r : Ref .list) : List Value := s.lists.get r.index
def dict (r : Ref .dict) : Dict := s.dicts.get r.index
def function (r : Ref .function) : Closure := s.functions.get r.index
def cls (r : Ref .cls) : Class := s.classes.get r.index
def inst (r : Ref .inst) : Instance := s.instances.get r.index
def bound (r : Ref .bound) : Bound := s.bounds.get r.index
def module (r : Ref .module) : Module := s.modules.get r.index

/-! ### Writing -/

def setScope (r : Ref .scope) (x : Scope) : Store := { s with scopes := s.scopes.set r.index x }
def setList (r : Ref .list) (x : List Value) : Store := { s with lists := s.lists.set r.index x }
def setDict (r : Ref .dict) (x : Dict) : Store := { s with dicts := s.dicts.set r.index x }
def setClass (r : Ref .cls) (x : Class) : Store := { s with classes := s.classes.set r.index x }
def setInst (r : Ref .inst) (x : Instance) : Store :=
  { s with instances := s.instances.set r.index x }
def setModule (r : Ref .module) (x : Module) : Store :=
  { s with modules := s.modules.set r.index x }

/-! ### Reading after writing -/

theorem scope_setScope (r q : Ref .scope) (x : Scope) :
    (s.setScope r x).scope q = if r = q then x else s.scope q := by
  simp only [scope, setScope, Arena.get_set, Ref.index_inj]

theorem cls_setClass (r q : Ref .cls) (x : Class) :
    (s.setClass r x).cls q = if r = q then x else s.cls q := by
  simp only [cls, setClass, Arena.get_set, Ref.index_inj]

/-- What a write to a class leaves alone stays the same for all classes. -/
theorem apply_cls_setClass {α : Type} {f : Class → α} {r : Ref .cls} {x : Class}
    (h : f x = f (s.cls r)) (q : Ref .cls) : f ((s.setClass r x).cls q) = f (s.cls q) := by
  rw [cls_setClass]
  split
  · next hq => rw [h, hq]
  · rfl

theorem inst_setInst (r q : Ref .inst) (x : Instance) :
    (s.setInst r x).inst q = if r = q then x else s.inst q := by
  simp only [inst, setInst, Arena.get_set, Ref.index_inj]

theorem module_setModule (r q : Ref .module) (x : Module) :
    (s.setModule r x).module q = if r = q then x else s.module q := by
  simp only [module, setModule, Arena.get_set, Ref.index_inj]

end Store

/-- An operation on the store, which may end in a fault. -/
abbrev StoreM := EStateM Fault Store

namespace StoreM

/-! ### Making cells -/

def newScope (x : Scope) : StoreM (Ref .scope) :=
  modifyGet fun s => (⟨s.scopes.size⟩, { s with scopes := s.scopes.push x })

def newList (x : List Value) : StoreM (Ref .list) :=
  modifyGet fun s => (⟨s.lists.size⟩, { s with lists := s.lists.push x })

def newDict (x : Dict) : StoreM (Ref .dict) :=
  modifyGet fun s => (⟨s.dicts.size⟩, { s with dicts := s.dicts.push x })

def newFunction (x : Closure) : StoreM (Ref .function) :=
  modifyGet fun s => (⟨s.functions.size⟩, { s with functions := s.functions.push x })

def newClass (x : Class) : StoreM (Ref .cls) :=
  modifyGet fun s => (⟨s.classes.size⟩, { s with classes := s.classes.push x })

def newInst (x : Instance) : StoreM (Ref .inst) :=
  modifyGet fun s => (⟨s.instances.size⟩, { s with instances := s.instances.push x })

def newBound (x : Bound) : StoreM (Ref .bound) :=
  modifyGet fun s => (⟨s.bounds.size⟩, { s with bounds := s.bounds.push x })

def newModule (x : Module) : StoreM (Ref .module) :=
  modifyGet fun s => (⟨s.modules.size⟩, { s with modules := s.modules.push x })

end StoreM

end Wei
