import Wei.Store

/-!
Lexical scopes. A name means what the innermost scope that binds it says. A scope is made after
the scope around it, so the walk outwards ends.
-/

namespace Wei

namespace Store

/-- The scope `r` and those around it, innermost first. -/
def chain (s : Store) (r : Ref .scope) : List (Ref .scope) :=
  r :: match (s.scope r).outer with
    | none => []
    | some outer => if outer.index < r.index then s.chain outer else []
termination_by r.index

/-- What passes from each scope to the one around it holds along the whole walk outwards. -/
theorem forall_mem_chain {s : Store} {P : Ref .scope → Prop}
    (hP : ∀ q outer, (s.scope q).outer = some outer → P q → P outer) {r : Ref .scope} (hr : P r) :
    ∀ q ∈ s.chain r, P q := by
  fun_induction s.chain r with
  | case1 r ih =>
    intro q hq
    rcases List.mem_cons.mp hq with rfl | hq
    · exact hr
    · split at hq
      · cases hq
      · next outer h =>
        split at hq
        · next hlt => exact ih outer hlt (hP r outer h hr) q hq
        · cases hq

/-- Does the scope itself bind the name? -/
def holds (s : Store) (r : Ref .scope) (name : String) : Bool :=
  (s.scope r).bindings.contains name

/-- The innermost scope from `r` outwards that binds the name. -/
def holder? (s : Store) (r : Ref .scope) (name : String) : Option (Ref .scope) :=
  (s.chain r).find? (s.holds · name)

/-- What the name means in scope `r`. -/
def lookup? (s : Store) (r : Ref .scope) (name : String) : Option Value :=
  (s.chain r).findSome? fun q => ((s.scope q).bindings.find? name).map (·.value)

/-- Writes a binding of a scope, in its place if the name is bound there. -/
def writeBinding (s : Store) (r : Ref .scope) (name : String) (b : Binding) : Store :=
  s.setScope r { s.scope r with bindings := (s.scope r).bindings.insert name b }

/-- Is the name a constant of this very scope? -/
def isConstant (s : Store) (r : Ref .scope) (name : String) : Bool :=
  ((s.scope r).bindings.find? name).any (·.constant)

end Store

namespace StoreM

/-- A new scope inside of `r`. -/
def childScope (r : Ref .scope) : StoreM (Ref .scope) := newScope ⟨.empty, some r⟩

/-- Binds a name that the scope does not bind yet. -/
def declare (r : Ref .scope) (name : String) (value : Value) (constant : Bool) : StoreM Unit :=
  fun s =>
    if s.holds r name then .error (.redeclaredVariable name) s
    else .ok () (s.writeBinding r name ⟨value, constant⟩)

/-- Binds names one after the other. -/
def declareAll (r : Ref .scope) (constant : Bool) : List (String × Value) → StoreM Unit
  | [] => pure ()
  | (name, value) :: rest => do
    declare r name value constant
    declareAll r constant rest

/-- Binds a parameter. It may take the place of a binding, whose being constant it keeps. -/
def bindParameter (r : Ref .scope) (name : String) (value : Value) : StoreM Unit :=
  fun s => .ok () (s.writeBinding r name ⟨value, s.isConstant r name⟩)

/-- Binds parameters one after the other. -/
def bindParameters (r : Ref .scope) : List (String × Value) → StoreM Unit
  | [] => pure ()
  | (name, value) :: rest => do
    bindParameter r name value
    bindParameters r rest

/-- Changes what a name means, in the innermost scope that binds it. -/
def assign (r : Ref .scope) (name : String) (value : Value) : StoreM Unit :=
  fun s =>
    match s.holder? r name with
    | none => .error (.undefinedName name) s
    | some q =>
      if s.isConstant q name then .error (.constantVariable name) s
      else .ok () (s.writeBinding q name ⟨value, false⟩)

/-- A scope without bindings is without constants. -/
theorem isConstant_of_no_bindings {s : Store} {r : Ref .scope}
    (h : (s.scope r).bindings = .empty) (x : String) : s.isConstant r x = false := by
  unfold Store.isConstant
  rw [h]
  rfl

/-- A scope without constants stays so when a variable is written to it. -/
theorem isConstant_writeBinding {s : Store} {r : Ref .scope} (h : ∀ x, s.isConstant r x = false)
    (x : String) (v : Value) (y : String) :
    (s.writeBinding r x ⟨v, false⟩).isConstant r y = false := by
  have hread : (s.writeBinding r x ⟨v, false⟩).scope r =
      { s.scope r with bindings := (s.scope r).bindings.insert x ⟨v, false⟩ } :=
    Arena.get_set_self ..
  unfold Store.isConstant
  rw [hread, OrderedMap.find?_insert]
  split
  · rfl
  · exact h y

end StoreM

end Wei
