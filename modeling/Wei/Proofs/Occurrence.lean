import Mathlib.Data.List.Basic
import Mathlib.Data.List.Infix
import Mathlib.Tactic.Lemma
import Wei.Text.Point
import Wei.Text.Search

/-!
Where a needle occurs in a text. Searching finds the first occurrence. A text in which the needle
occurs is cut there into what stands before and what stands after it, and since a needle that is not
empty makes the text behind a cut shorter, every text is cut up from the left in this way: that is
the induction by which counting and splitting are followed.
-/

namespace Wei.Text

section

variable {α : Type} [DecidableEq α] {needle cs xs : List α}

/-! ### Occurrences -/

lemma dropNeedle?_eq_some_iff {rest : List α} :
    dropNeedle? needle cs = some rest ↔ needle ++ rest = cs := by
  induction needle generalizing cs with
  | nil => simp [dropNeedle?, eq_comm]
  | cons n needle ih =>
    cases cs with
    | nil => simp [dropNeedle?]
    | cons c cs =>
      rw [dropNeedle?, List.cons_append, List.cons.injEq, ← ih]
      split <;> simp [*]

lemma startsWith_iff : startsWith needle cs = true ↔ needle <+: cs := by
  rw [startsWith, Option.isSome_iff_exists]
  exact exists_congr fun rest => dropNeedle?_eq_some_iff

lemma endsWith_iff : endsWith needle cs = true ↔ needle <:+ cs := by
  rw [endsWith, startsWith_iff, List.reverse_prefix]

end

variable {needle cs xs before after : Text} {c : Point} {i : Nat}

/-- The needle occurs in the text at position `i`. -/
def OccursAt (needle cs : Text) (i : Nat) : Prop := i ≤ cs.length ∧ needle <+: cs.drop i

lemma OccursAt.add_length_le (h : OccursAt needle cs i) : i + needle.length ≤ cs.length := by
  have hlength := h.2.length_le
  rw [List.length_drop] at hlength
  have := h.1
  omega

lemma occursAt_zero : OccursAt needle cs 0 ↔ needle <+: cs := by
  simp [OccursAt]

/-- What stands in front only moves the occurrences. -/
lemma occursAt_append : OccursAt needle (xs ++ cs) (xs.length + i) ↔ OccursAt needle cs i := by
  have hdrop : (xs ++ cs).drop (xs.length + i) = cs.drop i := by simp
  simp [OccursAt, hdrop]

lemma occursAt_cons_succ : OccursAt needle (c :: cs) (i + 1) ↔ OccursAt needle cs i := by
  simp [OccursAt]

lemma exists_occursAt_iff : (∃ i, OccursAt needle cs i) ↔ needle <:+: cs := by
  constructor
  · rintro ⟨i, -, hpre⟩
    exact hpre.isInfix.trans (List.drop_suffix i cs).isInfix
  · rintro ⟨before, after, rfl⟩
    exact ⟨before.length, by simp, by simp⟩

/-- A text ends with the needle if it occurs as far from the end as it is long. -/
lemma suffix_iff_occursAt :
    needle <:+ cs ↔ needle.length ≤ cs.length ∧ OccursAt needle cs (cs.length - needle.length) := by
  constructor
  · intro h
    refine ⟨h.length_le, Nat.sub_le _ _, ?_⟩
    rw [← List.suffix_iff_eq_drop.mp h]
  · rintro ⟨hle, -, h⟩
    have hlength : needle.length = (cs.drop (cs.length - needle.length)).length := by
      rw [List.length_drop]
      omega
    rw [h.eq_of_length hlength]
    exact List.drop_suffix _ _

/-- **Searching finds the first occurrence.** -/
lemma find?_spec (needle cs : Text) : (find? needle cs = none ∧ ∀ i, ¬ OccursAt needle cs i) ∨
    ∃ i, find? needle cs = some i ∧ OccursAt needle cs i ∧ ∀ j < i, ¬ OccursAt needle cs j := by
  induction cs with
  | nil =>
    cases needle with
    | nil => exact .inr ⟨0, rfl, by simp [OccursAt], by simp⟩
    | cons n needle => exact .inl ⟨rfl, by simp [OccursAt]⟩
  | cons c cs ih =>
    rw [find?]
    by_cases h : startsWith needle (c :: cs) = true
    · rw [if_pos h]
      exact .inr ⟨0, rfl, occursAt_zero.mpr (startsWith_iff.mp h), by simp⟩
    · rw [if_neg h]
      have hzero : ¬ OccursAt needle (c :: cs) 0 := fun h0 =>
        h (startsWith_iff.mpr (occursAt_zero.mp h0))
      have later {j : Nat} (hj : j ≠ 0) (hnot : ¬ OccursAt needle cs (j - 1)) :
          ¬ OccursAt needle (c :: cs) j := by
        obtain ⟨k, rfl⟩ := Nat.exists_eq_succ_of_ne_zero hj
        rwa [occursAt_cons_succ]
      rcases ih with ⟨hnone, hnot⟩ | ⟨i, hsome, hi, hmin⟩
      · refine .inl ⟨by rw [hnone]; rfl, fun j => ?_⟩
        by_cases hj : j = 0
        · rwa [hj]
        · exact later hj (hnot _)
      · refine .inr ⟨i + 1, by rw [hsome]; rfl, occursAt_cons_succ.mpr hi, fun j hlt => ?_⟩
        by_cases hj : j = 0
        · rwa [hj]
        · exact later hj (hmin _ (by omega))

/-! ### Cutting at the first occurrence -/

/-- The first occurrence of the needle in the text that these three make up is between them. -/
def FirstBetween (needle before after : Text) : Prop :=
  ∀ i < before.length, ¬ OccursAt needle (before ++ needle ++ after) i

lemma exists_firstBetween (h : needle <:+: cs) :
    ∃ before after, cs = before ++ needle ++ after ∧ FirstBetween needle before after := by
  rcases find?_spec needle cs with ⟨-, hnot⟩ | ⟨i, -, ⟨hle, after, hafter⟩, hmin⟩
  · obtain ⟨i, hi⟩ := exists_occursAt_iff.mpr h
    exact absurd hi (hnot i)
  · have hcs : cs.take i ++ needle ++ after = cs := by
      rw [List.append_assoc, hafter, List.take_append_drop]
    refine ⟨cs.take i, after, hcs.symm, fun j hj => ?_⟩
    rw [hcs]
    rw [List.length_take, min_eq_left hle] at hj
    exact hmin j hj

/-- Nothing is found in what stands before the first occurrence. -/
lemma FirstBetween.absent (h : FirstBetween needle before after) (hneedle : needle ≠ []) :
    ¬ needle <:+: before := by
  intro hin
  obtain ⟨i, hi⟩ := exists_occursAt_iff.mpr hin
  have hpos : 0 < needle.length := List.length_pos_of_ne_nil hneedle
  have hle := hi.add_length_le
  refine h i (by omega) ⟨by simp; omega, ?_⟩
  rw [List.append_assoc, List.drop_append_of_le_length hi.1]
  exact hi.2.trans (List.prefix_append _ _)

lemma FirstBetween.not_startsWith {b : Point} (h : FirstBetween needle (b :: before) after) :
    ¬ startsWith needle (b :: (before ++ needle ++ after)) = true := fun hstarts =>
  h 0 (by simp) (occursAt_zero.mpr (startsWith_iff.mp hstarts))

lemma FirstBetween.tail {b : Point} (h : FirstBetween needle (b :: before) after) :
    FirstBetween needle before after := fun i hi hat =>
  h (i + 1) (by simpa using hi) (occursAt_cons_succ.mpr hat)

/-- **Induction over the cuts of a text.** -/
lemma cut_induction {P : Text → Prop} (hneedle : needle ≠ [])
    (none : ∀ cs, ¬ needle <:+: cs → P cs)
    (cut : ∀ before after, FirstBetween needle before after → P after →
      P (before ++ needle ++ after)) (cs : Text) : P cs := by
  induction hn : cs.length using Nat.strong_induction_on generalizing cs with
  | _ n ih =>
    by_cases h : needle <:+: cs
    · obtain ⟨before, after, rfl, hfirst⟩ := exists_firstBetween h
      have hpos : 0 < needle.length := List.length_pos_of_ne_nil hneedle
      refine cut before after hfirst (ih after.length ?_ after rfl)
      simp only [List.length_append] at hn
      omega
    · exact none cs h

/-! ### Counting -/

lemma countFrom_skip (needle xs cs : Text) :
    countFrom needle xs.length (xs ++ cs) = countFrom needle 0 cs := by
  induction xs with
  | nil => rfl
  | cons x xs ih => exact ih

lemma countFrom_le_length (needle : Text) (skip : Nat) (cs : Text) :
    countFrom needle skip cs ≤ cs.length := by
  fun_induction countFrom needle skip cs with
  | case1 => exact Nat.le_refl _
  | case2 skip c cs ih => exact Nat.le_succ_of_le ih
  | case3 c cs h ih => exact Nat.succ_le_succ ih
  | case4 c cs h ih => exact Nat.le_succ_of_le ih

lemma countFrom_of_absent (h : ¬ needle <:+: cs) : countFrom needle 0 cs = 0 := by
  induction cs with
  | nil => rfl
  | cons c cs ih =>
    have hnot : ¬ startsWith needle (c :: cs) = true := fun hp => h (startsWith_iff.mp hp).isInfix
    rw [countFrom, if_neg hnot]
    exact ih fun hin => h (hin.trans (List.suffix_cons c cs).isInfix)

/-- **Counting goes on behind the first occurrence.** -/
lemma countFrom_of_first (hneedle : needle ≠ []) (h : FirstBetween needle before after) :
    countFrom needle 0 (before ++ needle ++ after) = countFrom needle 0 after + 1 := by
  induction before with
  | nil =>
    obtain ⟨n, tail, rfl⟩ := List.exists_cons_of_ne_nil hneedle
    have hstarts : startsWith (n :: tail) (n :: (tail ++ after)) = true :=
      startsWith_iff.mpr ⟨after, rfl⟩
    show countFrom (n :: tail) 0 (n :: (tail ++ after)) = _
    rw [countFrom, if_pos hstarts]
    exact congrArg (· + 1) (countFrom_skip (n :: tail) tail after)
  | cons b before ih =>
    show countFrom needle 0 (b :: (before ++ needle ++ after)) = _
    rw [countFrom, if_neg h.not_startsWith]
    exact ih h.tail

end Wei.Text
