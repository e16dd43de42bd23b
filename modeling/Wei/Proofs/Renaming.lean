import Mathlib.Order.WellFounded
import Wei.Proofs.Cell
import Wei.ListMethod
import Wei.Session

/-!
Renamings of cells. A script cannot see which number a cell has: it can only tell two cells apart,
and see which of two was made first. So a renaming that keeps the order of cells changes nothing
that a script can see.

A store holds an *image* of another store under a renaming if each cell of the other is found
there under its new number, with what it holds renamed, and if both are in step about the cells
that are still to be made. Writing to a cell and making a cell keep the image as it is, and leave
everything outside of it alone.
-/

namespace Wei

/-! ### Renaming -/

/-- New numbers for the cells of each kind, in the same order. The class `object` keeps its
number. -/
structure Renaming where
  index : Kind → Nat → Nat
  strictMono (k : Kind) : StrictMono (index k)
  object : index .cls 0 = 0

/-- Something in which references to cells can be renamed. -/
class Renamable (α : Type) where
  rename : Renaming → α → α

/-- What comes of something when its references are renamed. -/
def Renaming.on (f : Renaming) {α : Type} [Renamable α] (x : α) : α := Renamable.rename f x

/-- In some things no reference occurs. -/
@[reducible] def Renamable.fixed (α : Type) : Renamable α := ⟨fun _ x => x⟩

instance : Renamable Unit := .fixed Unit
instance : Renamable Bool := .fixed Bool
instance : Renamable Nat := .fixed Nat
instance : Renamable Int := .fixed Int
instance : Renamable Int64 := .fixed Int64
instance : Renamable String := .fixed String
instance : Renamable Fault := .fixed Fault
instance : Renamable Crash := .fixed Crash
instance : Renamable Path := .fixed Path
instance : Renamable Refusal := .fixed Refusal
instance : Renamable Program := .fixed Program
instance : Renamable Parsed := .fixed Parsed

instance {k : Kind} : Renamable (Ref k) := ⟨fun f r => ⟨f.index k r.index⟩⟩

section

variable {α β : Type} [Renamable α] [Renamable β]

instance : Renamable (Option α) := ⟨fun f => Option.map f.on⟩
instance : Renamable (List α) := ⟨fun f => List.map f.on⟩
instance : Renamable (α × β) := ⟨fun f x => (f.on x.1, f.on x.2)⟩
instance : Renamable (α ⊕ β) := ⟨fun f => Sum.map f.on f.on⟩

instance : Renamable (Except α β) where
  rename f
    | .ok b => .ok (f.on b)
    | .error a => .error (f.on a)

end

/-- Replaces the values of a map. -/
def OrderedMap.map {κ ν μ : Type} (g : ν → μ) (m : OrderedMap κ ν) : OrderedMap κ μ :=
  ⟨m.entries.map fun e => (e.1, g e.2), by simpa [Function.comp_def] using m.nodup⟩

instance {κ ν : Type} [Renamable ν] : Renamable (OrderedMap κ ν) := ⟨fun f => OrderedMap.map f.on⟩

/-- Renames what a value refers to, at its end also if it is on its way there. -/
def Value.rename (f : Renaming) : Value → Value
  | .null => .null
  | .bool b => .bool b
  | .int n => .int n
  | .str t => .str t
  | .list r => .list (f.on r)
  | .dict r => .dict (f.on r)
  | .function r => .function (f.on r)
  | .builtin b => .builtin b
  | .cls r => .cls (f.on r)
  | .inst r => .inst (f.on r)
  | .bound r => .bound (f.on r)
  | .module r => .module (f.on r)
  | .info r => .info (f.on r)
  | .error fault => .error fault
  | .returned v => .returned (v.rename f)
  | .breaking => .breaking
  | .continuing => .continuing

instance : Renamable Value := ⟨Value.rename⟩

instance : Renamable Binding := ⟨fun f b => ⟨f.on b.value, b.constant⟩⟩
instance : Renamable Scope := ⟨fun f x => ⟨f.on x.bindings, f.on x.outer⟩⟩
instance : Renamable Closure :=
  ⟨fun f x => { x with scope := f.on x.scope, owner := f.on x.owner }⟩
instance : Renamable Member := ⟨fun f d => ⟨f.on d.default, d.constant⟩⟩
instance : Renamable Class :=
  ⟨fun f c => ⟨c.name, f.on c.parent, f.on c.members, f.on c.methods, f.on c.classMembers,
    f.on c.classMethods⟩⟩
instance : Renamable Instance := ⟨fun f x => ⟨f.on x.cls, f.on x.members, x.initializing⟩⟩

instance : Renamable Receiver where
  rename f
    | .inst r => .inst (f.on r)
    | .cls r => .cls (f.on r)

instance : Renamable Bound where
  rename f
    | .text m t => .text m t
    | .list m r => .list m (f.on r)
    | .method r g => .method (f.on r) (f.on g)
    | .classMethod r g => .classMethod (f.on r) (f.on g)
    | .super owner receiver => .super (f.on owner) (f.on receiver)

instance : Renamable Module := ⟨fun f x => ⟨x.path, f.on x.scope, x.exports⟩⟩

instance : Renamable ClassSlot where
  rename f
    | .member b => .member (f.on b)
    | .method g => .method (f.on g)

instance : Renamable Iteration where
  rename f
    | .fixed rest => .fixed (f.on rest)
    | .live r next => .live (f.on r) next

instance : Renamable TextMethod.Answer where
  rename f
    | .value v => .value (f.on v)
    | .list elements => .list (f.on elements)

instance : Renamable ListMethod.Change := ⟨fun f c => ⟨f.on c.elements, f.on c.answer⟩⟩

instance : Renamable Exit where
  rename f
    | .returning v => .returning (f.on v)
    | e => e

instance : (k : Kind) → Renamable (Cell k)
  | .scope => inferInstanceAs (Renamable Scope)
  | .list => inferInstanceAs (Renamable (List Value))
  | .dict => inferInstanceAs (Renamable Dict)
  | .function => inferInstanceAs (Renamable Closure)
  | .cls => inferInstanceAs (Renamable Class)
  | .inst => inferInstanceAs (Renamable Instance)
  | .bound => inferInstanceAs (Renamable Bound)
  | .module => inferInstanceAs (Renamable Module)

namespace OrderedMap

variable {κ ν μ : Type} (g : ν → μ)

lemma values_map (m : OrderedMap κ ν) : (m.map g).values = m.values.map g := by
  simp [map, values, Function.comp_def]

variable [DecidableEq κ]

lemma lookup_map (k : κ) (es : List (κ × ν)) :
    lookup k (es.map fun e => (e.1, g e.2)) = (lookup k es).map g := by
  induction es with
  | nil => rfl
  | cons e rest ih =>
    rw [List.map_cons, lookup, lookup, ih]
    split
    · rfl
    · rfl

@[simp] lemma find?_map (m : OrderedMap κ ν) (k : κ) : (m.map g).find? k = (m.find? k).map g :=
  lookup_map g k m.entries

@[simp] lemma contains_map (m : OrderedMap κ ν) (k : κ) :
    (m.map g).contains k = m.contains k := by
  simp [contains]

lemma write_map (k : κ) (v : ν) (es : List (κ × ν)) :
    (write k v es).map (fun e => (e.1, g e.2)) = write k (g v) (es.map fun e => (e.1, g e.2)) := by
  induction es with
  | nil => rfl
  | cons e rest ih =>
    rw [write, List.map_cons, write, ← ih]
    split
    · rfl
    · rfl

lemma map_insert (m : OrderedMap κ ν) (k : κ) (v : ν) :
    (m.insert k v).map g = (m.map g).insert k (g v) :=
  ext_entries (write_map g k v m.entries)

variable [Renamable ν] (f : Renaming)

lemma find?_on (m : OrderedMap κ ν) (k : κ) : (f.on m).find? k = f.on (m.find? k) :=
  find?_map f.on m k

lemma contains_on (m : OrderedMap κ ν) (k : κ) : (f.on m).contains k = m.contains k :=
  contains_map f.on m k

lemma insert_on (m : OrderedMap κ ν) (k : κ) (v : ν) :
    (f.on m).insert k (f.on v) = f.on (m.insert k v) :=
  (map_insert f.on m k v).symm

omit [DecidableEq κ] in
lemma values_on (m : OrderedMap κ ν) : (f.on m).values = f.on m.values := values_map f.on m

end OrderedMap

namespace Renaming

variable (f : Renaming)

lemma on_injective {k : Kind} {r q : Ref k} : f.on r = f.on q ↔ r = q := by
  rw [← Ref.index_inj, ← Ref.index_inj]
  exact (f.strictMono k).injective.eq_iff

lemma index_lt_iff {k : Kind} {r q : Ref k} : (f.on r).index < (f.on q).index ↔ r.index < q.index :=
  (f.strictMono k).lt_iff_lt

lemma on_object : f.on Store.object = Store.object := congrArg Ref.mk f.object

/-- If the first cell that is not there becomes the first that is not there, then no other cell
comes to be there or is lost. -/
lemma live_iff {k : Kind} {n n' : Census} (hend : f.index k (n k) = n' k) {r : Ref k} :
    (f.on r).Live n' ↔ r.Live n := by
  unfold Ref.Live
  rw [← hend]
  exact (f.strictMono k).lt_iff_lt

/-- Two values are one exactly if they are so when renamed. -/
lemma on_value_injective {v w : Value} : f.on v = f.on w ↔ v = w := by
  induction v generalizing w <;> cases w <;>
    simp_all [Renaming.on, Renamable.rename, Value.rename, (f.strictMono _).injective.eq_iff,
      Ref.index_inj]

end Renaming

namespace Store

variable {s t base : Store} {f : Renaming} {k j : Kind}

/-! ### Reading after writing -/

lemma read_write (s : Store) (r q : Ref k) (x : Cell k) :
    (s.write r x).read q = if r = q then x else s.read q := by
  unfold read write
  rw [cells_withCells, Arena.get_set]
  simp only [Ref.index_inj]

lemma read_write_of_ne (s : Store) (h : k ≠ j) (r : Ref k) (x : Cell k) (q : Ref j) :
    (s.write r x).read q = s.read q := by
  unfold read write
  rw [cells_withCells_of_ne s h]

lemma read_add (s : Store) (x : Cell k) (q : Ref k) :
    (s.add x).read q = if s.next k = q then x else s.read q := by
  unfold read add
  rw [cells_withCells, Arena.get_push]
  simp only [← Ref.index_inj, eq_comm]
  rfl

lemma read_add_of_ne (s : Store) (h : k ≠ j) (x : Cell k) (q : Ref j) :
    (s.add x).read q = s.read q := by
  unfold read add
  rw [cells_withCells_of_ne s h]

lemma read_of_not_live {r : Ref k} (h : ¬ r.Live s.census) : s.read r = default :=
  Arena.get_of_size_le _ (Nat.le_of_not_lt h)

lemma addresses_withCells (s : Store) (a : Arena (Cell k)) :
    (s.withCells k a).addresses = s.addresses := by
  cases k <;> rfl

/-! ### Images -/

/-- **The store `t` holds an image of the store `s`**: each cell is found under its new number with
what it holds renamed, and both stores are in step about the cells that are still to be made.
Outside of the image `t` is like `base`. The class `object` is as it was made. -/
structure Image (f : Renaming) (base s t : Store) : Prop where
  aligned (k : Kind) (u : Nat) : f.index k (s.census k + u) = t.census k + u
  read {k : Kind} (r : Ref k) : r.Live s.census → t.read (f.on r) = f.on (s.read r)
  frame {k : Kind} (q : Ref k) : (∀ r, f.on r ≠ q) → t.read q = base.read q
  addresses (n : Nat) : t.addresses (f.index .inst n) = s.addresses n
  addresses_eq : t.addresses = base.addresses
  object_live : Store.object.Live s.census
  object : s.cls Store.object = Class.blank "object" none

namespace Image

variable (h : Image f base s t)
include h

lemma on_next (k : Kind) : f.on (s.next k) = t.next k := congrArg Ref.mk (h.aligned k 0)

/-- The image of a cell is there exactly if the cell is. -/
lemma live_iff {r : Ref k} : (f.on r).Live t.census ↔ r.Live s.census :=
  f.live_iff (h.aligned k 0)

lemma census_le : s.census ≤ t.census := by
  intro k
  have hend : f.index k (s.census k) = t.census k := h.aligned k 0
  rw [← hend]
  exact (f.strictMono k).le_apply

/-- Writing to a cell and to its image. -/
lemma write {r : Ref k} (hr : r.Live s.census) (x : Cell k)
    (hobject : (s.write r x).cls Store.object = Class.blank "object" none) :
    Image f base (s.write r x) (t.write (f.on r) (f.on x)) := by
  have hs := s.census_write hr x
  have ht := t.census_write (h.live_iff.mpr hr) (f.on x)
  refine ⟨fun j u => ?_, fun {j} q hq => ?_, fun {j} q hq => ?_, fun n => ?_, ?_, ?_, hobject⟩
  · rw [hs, ht]
    exact h.aligned j u
  · rw [hs] at hq
    by_cases hk : k = j
    · subst hk
      rw [read_write, read_write]
      simp only [f.on_injective]
      split
      · rfl
      · exact h.read q hq
    · rw [read_write_of_ne _ hk, read_write_of_ne _ hk]
      exact h.read q hq
  · by_cases hk : k = j
    · subst hk
      rw [read_write, if_neg (hq r)]
      exact h.frame q hq
    · rw [read_write_of_ne _ hk]
      exact h.frame q hq
  · unfold Store.write
    rw [addresses_withCells, addresses_withCells]
    exact h.addresses n
  · unfold Store.write
    rw [addresses_withCells]
    exact h.addresses_eq
  · rw [hs]
    exact h.object_live

/-- Making a cell in both stores. -/
lemma add (x : Cell k) : Image f base (s.add x) (t.add (f.on x)) := by
  refine ⟨fun j u => ?_, fun {j} q hq => ?_, fun {j} q hq => ?_, fun n => ?_, ?_, ?_, ?_⟩
  · rw [census_add, census_add]
    split
    · rw [Nat.add_assoc, Nat.add_assoc]
      exact h.aligned j (1 + u)
    · exact h.aligned j u
  · have hq : q.index < (s.add x).census j := hq
    rw [census_add] at hq
    by_cases hk : k = j
    · subst hk
      rw [read_add, read_add, ← h.on_next]
      rw [if_pos rfl] at hq
      simp only [f.on_injective]
      split
      · rfl
      · next hne =>
        have hne : s.census k ≠ q.index := fun e => hne (Ref.index_inj.mp e)
        have hlive : q.index < s.census k := by omega
        exact h.read q hlive
    · rw [read_add_of_ne _ hk, read_add_of_ne _ hk]
      rw [if_neg hk] at hq
      exact h.read q hq
  · by_cases hk : k = j
    · subst hk
      rw [read_add, ← h.on_next, if_neg (hq _)]
      exact h.frame q hq
    · rw [read_add_of_ne _ hk]
      exact h.frame q hq
  · unfold Store.add
    rw [addresses_withCells, addresses_withCells]
    exact h.addresses n
  · unfold Store.add
    rw [addresses_withCells]
    exact h.addresses_eq
  · exact h.object_live.mono (s.census_le_add x)
  · have hread : (s.add x).read Store.object = s.read Store.object := by
      by_cases hk : k = .cls
      · subst hk
        have hne : s.next .cls ≠ Store.object := fun e => by
          have hlive : 0 < s.census .cls := h.object_live
          have hzero : s.census .cls = 0 := congrArg Ref.index e
          omega
        rw [read_add, if_neg hne]
      · rw [read_add_of_ne _ hk]
    exact hread.trans h.object

/-! ### Reading -/

/-- Where the blank refers to no cell, cells that are not there read alike as well. -/
lemma read_of_blank (hblank : f.on (default : Cell k) = default) (r : Ref k) :
    t.read (f.on r) = f.on (s.read r) := by
  by_cases hr : r.Live s.census
  · exact h.read r hr
  · rw [read_of_not_live hr, read_of_not_live (mt h.live_iff.mp hr), hblank]

lemma scope (r : Ref .scope) : t.scope (f.on r) = f.on (s.scope r) := h.read_of_blank rfl r

lemma list (r : Ref .list) : t.list (f.on r) = f.on (s.list r) := h.read_of_blank rfl r

lemma dict (r : Ref .dict) : t.dict (f.on r) = f.on (s.dict r) := h.read_of_blank rfl r

lemma cls (r : Ref .cls) : t.cls (f.on r) = f.on (s.cls r) := h.read_of_blank rfl r

lemma inst (r : Ref .inst) : t.inst (f.on r) = f.on (s.inst r) := by
  refine h.read_of_blank ?_ r
  exact congrArg (fun c => (⟨c, default, default⟩ : Instance)) f.on_object

lemma bound (r : Ref .bound) : t.bound (f.on r) = f.on (s.bound r) := h.read_of_blank rfl r

lemma function {r : Ref .function} (hr : r.Live s.census) :
    t.function (f.on r) = f.on (s.function r) := h.read r hr

lemma module {r : Ref .module} (hr : r.Live s.census) : t.module (f.on r) = f.on (s.module r) :=
  h.read r hr

/-- All but the scope of a function reads alike even if the function is not there. -/
lemma exists_function (r : Ref .function) :
    ∃ q, t.function (f.on r) = { f.on (s.function r) with scope := q } := by
  by_cases hr : r.Live s.census
  · exact ⟨_, h.function hr⟩
  · have hs : s.function r = default := read_of_not_live hr
    have ht : t.function (f.on r) = default := read_of_not_live (mt h.live_iff.mp hr)
    rw [hs, ht]
    exact ⟨_, rfl⟩

lemma exists_module (r : Ref .module) :
    ∃ q, t.module (f.on r) = { f.on (s.module r) with scope := q } := by
  by_cases hr : r.Live s.census
  · exact ⟨_, h.module hr⟩
  · have hs : s.module r = default := read_of_not_live hr
    have ht : t.module (f.on r) = default := read_of_not_live (mt h.live_iff.mp hr)
    rw [hs, ht]
    exact ⟨_, rfl⟩

end Image

end Store

end Wei
