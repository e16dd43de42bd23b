import Mathlib.Tactic.Lemma
import Wei.Class

/-!
Looking along a line. Names are looked for in one scope after the other and attributes in one class
after the other, and the first that has an answer gives it. So what is replaced in one place shows
along the lines on which that place is the first to answer, and along no other.
-/

namespace Wei

variable {α β : Type}

/-- What is found first is found by the first that has it. -/
lemma findSome?_eq_bind_find? {g : α → Option β} {p : α → Bool} (h : ∀ a, (g a).isSome = p a)
    (line : List α) : line.findSome? g = (line.find? p).bind g := by
  induction line with
  | nil => rfl
  | cons a rest ih =>
    rw [List.findSome?_cons, List.find?_cons, ← h a]
    cases hg : g a with
    | some b => simp [hg]
    | none => simpa [hg] using ih

/-- **What is replaced in one place shows where that place is the first to answer.** -/
theorem findSome?_of_replaced [DecidableEq α] {f g : α → Option β} {q : α}
    (hq : (g q).isSome = (f q).isSome) (hrest : ∀ a, a ≠ q → g a = f a) (line : List α) :
    line.findSome? g =
      if line.find? (fun a => (f a).isSome) = some q then g q else line.findSome? f := by
  have hsome : ∀ a, (g a).isSome = (f a).isSome := by
    intro a
    by_cases ha : a = q
    · rw [ha, hq]
    · rw [hrest a ha]
  rw [findSome?_eq_bind_find? hsome, findSome?_eq_bind_find? fun _ => rfl]
  cases line.find? fun a => (f a).isSome with
  | none => simp
  | some a =>
    by_cases ha : a = q
    · simp [ha]
    · simp [ha, hrest a ha]

/-- A class has an answer for the names of its class members and of its class methods. -/
lemma Class.isSome_slot? (c : Class) (x : String) :
    (c.slot? x).isSome = (c.classMembers.contains x || c.classMethods.contains x) := by
  unfold slot? OrderedMap.contains
  cases c.classMembers.find? x with
  | some b => rfl
  | none => simp

end Wei
