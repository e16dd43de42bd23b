/-!
Cells of one kind, numbered from zero in the order in which they were made. A cell that nobody
wrote reads as the blank of its type, and a write beyond the end fills the gap with blanks: so
what is read after a write needs no side condition.
-/

namespace Wei

/-- Numbered cells. -/
structure Arena (α : Type) where
  cells : Array α
  deriving Inhabited

namespace Arena

variable {α : Type}

/-- No cell has been made. -/
def empty : Arena α := ⟨#[]⟩

/-- How many cells have been made; the number of the next one. -/
def size (a : Arena α) : Nat := a.cells.size

/-- Makes a new cell, numbered `a.size`. -/
def push (a : Arena α) (x : α) : Arena α := ⟨a.cells.push x⟩

@[simp] theorem size_push (a : Arena α) (x : α) : (a.push x).size = a.size + 1 := by
  simp [push, size]

variable [Inhabited α]

/-- The content of a cell. -/
def get (a : Arena α) (i : Nat) : α := a.cells.getD i default

/-- Replaces the content of a cell. -/
def set (a : Arena α) (i : Nat) (x : α) : Arena α :=
  if i < a.cells.size then ⟨a.cells.setIfInBounds i x⟩
  else ⟨(a.cells ++ Array.replicate (i - a.cells.size) default).push x⟩

@[simp] theorem size_set_of_lt (a : Arena α) {i : Nat} (h : i < a.size) (x : α) :
    (a.set i x).size = a.size := by
  simp [set, size] at *
  simp [h]

theorem size_le_set (a : Arena α) (i : Nat) (x : α) : a.size ≤ (a.set i x).size := by
  unfold set size
  split
  · simp
  · simp only [Array.size_push, Array.size_append]
    omega

theorem get_of_size_le (a : Arena α) {i : Nat} (h : a.size ≤ i) : a.get i = default := by
  simp [get, size] at *
  simp [Array.getElem?_eq_none h]

@[simp] theorem get_push_size (a : Arena α) (x : α) : (a.push x).get a.size = x := by
  simp [get, push, size, Array.getD_eq_getD_getElem?]

theorem get_push_of_ne (a : Arena α) (x : α) {i : Nat} (h : i ≠ a.size) :
    (a.push x).get i = a.get i := by
  simp only [get, push, size, Array.getD_eq_getD_getElem?] at *
  rw [Array.getElem?_push, if_neg h]

/-- A new cell holds what it was made with, and every other cell what it held. -/
theorem get_push (a : Arena α) (x : α) (i : Nat) :
    (a.push x).get i = if i = a.size then x else a.get i := by
  split
  · next h => subst h; simp
  · next h => exact get_push_of_ne a x h

/-- **Reading after writing**: the written cell holds the new content, every other cell is as it
was. -/
theorem get_set (a : Arena α) (i j : Nat) (x : α) :
    (a.set i x).get j = if i = j then x else a.get j := by
  simp only [set, get, Array.getD_eq_getD_getElem?]
  split
  · next h =>
    rw [Array.getElem?_setIfInBounds]
    split <;> simp_all
  · next h =>
    rw [Array.getElem?_push]
    have hs : (a.cells ++ Array.replicate (i - a.cells.size) (default : α)).size = i := by
      simp; omega
    rw [hs]
    by_cases hij : i = j
    · simp [hij]
    · have hji : ¬ j = i := fun e => hij e.symm
      rw [if_neg hij, if_neg hji, Array.getElem?_append]
      split
      · rfl
      · next hj =>
        rw [Array.getElem?_eq_none (by omega : a.cells.size ≤ j)]
        rw [Array.getElem?_replicate]
        split <;> rfl

@[simp] theorem get_set_self (a : Arena α) (i : Nat) (x : α) : (a.set i x).get i = x := by
  simp [get_set]

/-- A new cell that is written at once might as well have been made so. -/
theorem set_push_size (a : Arena α) (x y : α) : (a.push x).set a.size y = a.push y := by
  have h : a.size < (a.push x).cells.size := by simp [push, size]
  rw [set, if_pos h]
  congr 1
  apply Array.ext_getElem?
  intro i
  simp only [push, size, Array.getElem?_setIfInBounds, Array.getElem?_push, Array.size_push]
  by_cases hi : a.cells.size = i
  · simp [hi]
  · simp [hi, Ne.symm hi]

theorem get_set_of_ne (a : Arena α) {i j : Nat} (h : i ≠ j) (x : α) :
    (a.set i x).get j = a.get j := by
  simp [get_set, h]

end Arena

end Wei
