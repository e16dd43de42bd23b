import Wei.Store

/-!
Classes. Every class but a root has a parent, which was made before it, so the walk towards the
root ends. Look-ups walk this line at the time of the look-up: what is added to an ancestor later
shows through.
-/

namespace Wei

/-- What a name of a class stands for. -/
inductive ClassSlot where
  | member (b : Binding)
  | method (f : Ref .function)
  deriving DecidableEq

/-- What the class itself, without its ancestors, says about a name. -/
def Class.slot? (c : Class) (name : String) : Option ClassSlot :=
  match c.classMembers.find? name with
  | some b => some (.member b)
  | none => (c.classMethods.find? name).map .method

namespace Store

/-- The class `r`, then each of its ancestors, the root last. -/
def lineage (s : Store) (r : Ref .cls) : List (Ref .cls) :=
  r :: match (s.cls r).parent with
    | none => []
    | some parent => if parent.index < r.index then s.lineage parent else []
termination_by r.index

/-- What passes from each class to its parent holds along the whole line. -/
theorem forall_mem_lineage {s : Store} {P : Ref .cls → Prop}
    (hP : ∀ c parent, (s.cls c).parent = some parent → P c → P parent) {r : Ref .cls} (hr : P r) :
    ∀ c ∈ s.lineage r, P c := by
  fun_induction s.lineage r with
  | case1 r ih =>
    intro c hc
    rcases List.mem_cons.mp hc with rfl | hc
    · exact hr
    · split at hc
      · cases hc
      · next parent h =>
        split at hc
        · next hlt => exact ih parent hlt (hP r parent h hr) c hc
        · cases hc

/-- The line depends on the parents along it only. -/
theorem lineage_congr {s s' : Store} {r : Ref .cls}
    (h : ∀ c ∈ s.lineage r, (s'.cls c).parent = (s.cls c).parent) :
    s'.lineage r = s.lineage r := by
  fun_induction s.lineage r with
  | case1 r ih =>
    rw [Store.lineage, h r List.mem_cons_self]
    cases hp : (s.cls r).parent with
    | none => rfl
    | some parent =>
      rw [hp] at h
      dsimp only at h ⊢
      split
      · next hlt =>
        rw [if_pos hlt] at h
        exact congrArg (r :: ·) (ih parent hlt fun c hc => h c (List.mem_cons_of_mem r hc))
      · rfl

/-- The method that instances of the class have under a name: that of the nearest ancestor. -/
def findMethod? (s : Store) (r : Ref .cls) (name : String) : Option (Ref .function) :=
  (s.lineage r).findSome? fun c => (s.cls c).methods.find? name

/-- What the class, or else its nearest ancestor, says about a name. -/
def findSlot? (s : Store) (r : Ref .cls) (name : String) : Option ClassSlot :=
  (s.lineage r).findSome? fun c => (s.cls c).slot? name

/-- Is the instance member constant? The nearest declaration decides. -/
def isConstantMember (s : Store) (r : Ref .cls) (name : String) : Bool :=
  ((s.lineage r).findSome? fun c => (s.cls c).members.find? name).any (·.constant)

/-- The members of a new instance: those of the whole line, the root's first. A declaration
nearer to the class replaces the default and keeps the place. -/
def flattenedMembers (s : Store) (r : Ref .cls) : OrderedMap String (Option Value) :=
  (s.lineage r).reverse.foldl
    (fun acc c => (s.cls c).members.entries.foldl (fun acc e => acc.insert e.1 e.2.default) acc)
    .empty

end Store

namespace StoreM

/-! ### Declarations in a class body

Each of the four tables of a class refuses a second declaration of a name. -/

def addMember (r : Ref .cls) (name : String) (default : Option Value) (constant : Bool) :
    StoreM Unit :=
  fun s =>
    let c := s.cls r
    if c.members.contains name then .error (.redeclaredMember name) s
    else .ok () (s.setClass r { c with members := c.members.insert name ⟨default, constant⟩ })

def addClassMember (r : Ref .cls) (name : String) (value : Value) (constant : Bool) :
    StoreM Unit :=
  fun s =>
    let c := s.cls r
    if c.classMembers.contains name then .error (.redeclaredMember name) s
    else
      .ok () (s.setClass r
        { c with classMembers := c.classMembers.insert name ⟨value, constant⟩ })

def addMethod (r : Ref .cls) (name : String) (f : Ref .function) : StoreM Unit :=
  fun s =>
    let c := s.cls r
    if c.methods.contains name then .error (.redeclaredMember name) s
    else .ok () (s.setClass r { c with methods := c.methods.insert name f })

def addClassMethod (r : Ref .cls) (name : String) (f : Ref .function) : StoreM Unit :=
  fun s =>
    let c := s.cls r
    if c.classMethods.contains name then .error (.redeclaredMember name) s
    else .ok () (s.setClass r { c with classMethods := c.classMethods.insert name f })

/-! ### Attributes of a class -/

/-- The attribute of a class. A class method is bound to the class that was asked. -/
def classAttribute? (r : Ref .cls) (name : String) : StoreM (Option Value) := do
  match (← get).findSlot? r name with
  | some (.member b) => pure (some b.value)
  | some (.method f) => pure (some (.bound (← newBound (.classMethod r f))))
  | none => pure none

/-- Writes an attribute of a class. The slot belongs to the nearest ancestor that declares it, and
its descendants share it. -/
def setClassAttribute (r : Ref .cls) (name : String) (value : Value) : StoreM Unit :=
  fun s =>
    match (s.lineage r).find? fun c => (s.cls c).classMembers.contains name with
    | none => .error (.noAttribute ("<class " ++ (s.cls r).name ++ ">") name) s
    | some owner =>
      let c := s.cls owner
      if (c.classMembers.find? name).any (·.constant) then .error (.constantAttribute name) s
      else
        .ok () (s.setClass owner
          { c with classMembers := c.classMembers.insert name ⟨value, false⟩ })

end StoreM

end Wei
