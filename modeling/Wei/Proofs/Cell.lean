import Mathlib.Data.Nat.Basic
import Mathlib.Order.Basic
import Mathlib.Tactic.Lemma
import Wei.Proofs.Alphabet
import Wei.Store

/-!
The store as one table of cells. Its eight arenas are taken together here: a cell is found by a
reference of its kind, and what a cell holds are values and links to other cells. Nothing is left
dangling as long as all of these are *live*, which means that the cell they refer to has been made.
Cells are only ever added, so what is live once stays live. A live value is also one that a script
can hold: no fault, and nothing that is on its way.
-/

namespace Wei

/-- What a cell of a kind holds. -/
@[reducible] def Cell : Kind → Type
  | .scope => Scope
  | .list => List Value
  | .dict => Dict
  | .function => Closure
  | .cls => Class
  | .inst => Instance
  | .bound => Bound
  | .module => Module

instance : (k : Kind) → Inhabited (Cell k)
  | .scope => inferInstanceAs (Inhabited Scope)
  | .list => inferInstanceAs (Inhabited (List Value))
  | .dict => inferInstanceAs (Inhabited Dict)
  | .function => inferInstanceAs (Inhabited Closure)
  | .cls => inferInstanceAs (Inhabited Class)
  | .inst => inferInstanceAs (Inhabited Instance)
  | .bound => inferInstanceAs (Inhabited Bound)
  | .module => inferInstanceAs (Inhabited Module)

/-- How many cells of each kind there are. -/
abbrev Census := Kind → Nat

/-- The cell has been made. -/
def Ref.Live (n : Census) {k : Kind} (r : Ref k) : Prop := r.index < n k

namespace Store

/-! ### Reading and writing cells of any kind -/

/-- The cells of a kind. -/
def cells (s : Store) : (k : Kind) → Arena (Cell k)
  | .scope => s.scopes
  | .list => s.lists
  | .dict => s.dicts
  | .function => s.functions
  | .cls => s.classes
  | .inst => s.instances
  | .bound => s.bounds
  | .module => s.modules

/-- The store with other cells of a kind. -/
def withCells (s : Store) : (k : Kind) → Arena (Cell k) → Store
  | .scope, a => { s with scopes := a }
  | .list, a => { s with lists := a }
  | .dict, a => { s with dicts := a }
  | .function, a => { s with functions := a }
  | .cls, a => { s with classes := a }
  | .inst, a => { s with instances := a }
  | .bound, a => { s with bounds := a }
  | .module, a => { s with modules := a }

/-- How many cells of each kind have been made. -/
def census (s : Store) : Census := fun k => (s.cells k).size

/-- What the cell holds. -/
def read (s : Store) {k : Kind} (r : Ref k) : Cell k := (s.cells k).get r.index

/-- Replaces what the cell holds. -/
def write (s : Store) {k : Kind} (r : Ref k) (x : Cell k) : Store :=
  s.withCells k ((s.cells k).set r.index x)

/-- Makes a cell. -/
def add (s : Store) {k : Kind} (x : Cell k) : Store := s.withCells k ((s.cells k).push x)

/-- The cell that is made next. -/
def next (s : Store) (k : Kind) : Ref k := ⟨s.census k⟩

variable (s : Store) {k j : Kind}

@[simp] lemma cells_withCells (a : Arena (Cell k)) : (s.withCells k a).cells k = a := by
  cases k <;> rfl

lemma cells_withCells_of_ne (h : k ≠ j) (a : Arena (Cell k)) :
    (s.withCells k a).cells j = s.cells j := by
  cases k <;> cases j <;> first | rfl | exact absurd rfl h

/-- **Reading after writing**, for properties of a cell and its content. -/
lemma read_write_induction {P : {j : Kind} → Ref j → Cell j → Prop} {r : Ref k} {x : Cell k}
    (hx : P r x) {q : Ref j} (hq : P q (s.read q)) : P q ((s.write r x).read q) := by
  unfold read write
  by_cases hk : k = j
  · subst hk
    rw [cells_withCells, Arena.get_set]
    split
    · next h =>
      obtain rfl : r = q := by
        cases r
        cases q
        exact congrArg _ h
      exact hx
    · exact hq
  · rw [cells_withCells_of_ne s hk]
    exact hq

lemma census_write {r : Ref k} (hr : r.Live s.census) (x : Cell k) :
    (s.write r x).census = s.census := by
  funext j
  unfold census write
  by_cases hk : k = j
  · subst hk
    rw [cells_withCells, Arena.size_set_of_lt _ hr]
  · rw [cells_withCells_of_ne s hk]

lemma census_add (x : Cell k) (j : Kind) :
    (s.add x).census j = if k = j then s.census j + 1 else s.census j := by
  unfold census add
  by_cases hk : k = j
  · subst hk
    rw [cells_withCells, Arena.size_push, if_pos rfl]
  · rw [cells_withCells_of_ne s hk, if_neg hk]

lemma census_le_add (x : Cell k) : s.census ≤ (s.add x).census := by
  intro j
  rw [census_add]
  split
  · exact Nat.le_succ _
  · exact Nat.le_refl _

lemma live_next (x : Cell k) : (s.next k).Live (s.add x).census := by
  show s.census k < (s.add x).census k
  rw [census_add, if_pos rfl]
  exact Nat.lt_succ_self _

/-- **Reading after making a cell**, for properties of a live cell and its content. -/
lemma read_add_induction {P : {j : Kind} → Ref j → Cell j → Prop} {x : Cell k}
    (hx : P (s.next k) x) {q : Ref j} (hl : q.Live (s.add x).census)
    (hq : q.Live s.census → P q (s.read q)) : P q ((s.add x).read q) := by
  have hl : q.index < (s.add x).census j := hl
  rw [census_add] at hl
  unfold read add
  by_cases hk : k = j
  · subst hk
    rw [cells_withCells, Arena.get_push]
    rw [if_pos rfl] at hl
    split
    · next h =>
      obtain rfl : s.next k = q := by
        cases q
        exact congrArg _ h.symm
      exact hx
    · next h => exact hq (by unfold Ref.Live census at *; omega)
  · rw [cells_withCells_of_ne s hk]
    rw [if_neg hk] at hl
    exact hq hl

end Store

/-! ### Liveness -/

/-- The value is one that a script can hold: the cell to which it refers, if it refers to one, has
been made, a text is over the alphabet, and a fault or something on its way it is not. -/
def Value.Live [Alphabet] (n : Census) : Value → Prop
  | .null => True
  | .bool _ => True
  | .int _ => True
  | .str t => t.Over
  | .list r => r.Live n
  | .dict r => r.Live n
  | .function r => r.Live n
  | .builtin _ => True
  | .cls r => r.Live n
  | .inst r => r.Live n
  | .bound r => r.Live n
  | .module r => r.Live n
  | .info r => r.Live n
  | .error _ => False
  | .returned _ => False
  | .breaking => False
  | .continuing => False

/-- What a bound method is bound to. -/
def Receiver.value : Receiver → Value
  | .inst r => .inst r
  | .cls r => .cls r

namespace Cell

/-- The values that a cell holds: those of bindings, the elements of a list, the keys and values of
a dictionary, those of the members of classes and instances, and the receiver of a bound method. -/
def values : {k : Kind} → Cell k → List Value
  | .scope, x => x.bindings.values.map (·.value)
  | .list, x => x
  | .dict, x => (OrderedMap.values x).flatMap fun e => [e.1, e.2]
  | .function, _ => []
  | .cls, x => x.members.values.filterMap (·.default) ++ x.classMembers.values.map (·.value)
  | .inst, x => x.members.values.filterMap id
  | .bound, .text _ t => [.str t]
  | .bound, .list _ r => [.list r]
  | .bound, .method r _ => [.inst r]
  | .bound, .classMethod r _ => [.cls r]
  | .bound, .super _ receiver => [receiver.value]
  | .module, _ => []

/-- The cells to which a cell is linked other than by a value that it holds. -/
def links : {k : Kind} → Cell k → List (Σ j, Ref j)
  | .scope, x => x.outer.toList.map (⟨.scope, ·⟩)
  | .list, _ => []
  | .dict, _ => []
  | .function, x => ⟨.scope, x.scope⟩ :: x.owner.toList.map (⟨.cls, ·⟩)
  | .cls, x => x.parent.toList.map (⟨.cls, ·⟩) ++
    (x.methods.values ++ x.classMethods.values).map (⟨.function, ·⟩)
  | .inst, x => [⟨.cls, x.cls⟩]
  | .bound, .text _ _ => []
  | .bound, .list _ _ => []
  | .bound, .method _ f => [⟨.function, f⟩]
  | .bound, .classMethod _ f => [⟨.function, f⟩]
  | .bound, .super owner _ => [⟨.cls, owner⟩]
  | .module, x => [⟨.scope, x.scope⟩]

end Cell

variable {n n' : Census}

lemma Ref.Live.mono {k : Kind} {r : Ref k} (h : r.Live n) (hn : n ≤ n') : r.Live n' :=
  Nat.lt_of_lt_of_le h (hn k)

section Values

variable [Alphabet]

lemma Value.live_null : Value.null.Live n := trivial

lemma Value.live_string (s : String) : (Value.str s).Live n := Text.Over.ofString s

lemma Value.Live.mono {v : Value} (h : v.Live n) (hn : n ≤ n') : v.Live n' := by
  cases v with
  | null => trivial
  | bool b => trivial
  | int i => trivial
  | str t => exact h
  | builtin b => trivial
  | error f => exact h
  | returned v => exact h
  | breaking => exact h
  | continuing => exact h
  | _ r => exact Ref.Live.mono h hn

/-- **A live value is neither a fault nor on its way.** -/
lemma Value.Live.isOrdinary {v : Value} (h : v.Live n) : v.isOrdinary = true := by
  cases v with
  | error f => exact h.elim
  | returned v => exact h.elim
  | breaking => exact h.elim
  | continuing => exact h.elim
  | _ => rfl

end Values

end Wei
