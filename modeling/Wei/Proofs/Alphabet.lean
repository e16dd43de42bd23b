import Mathlib.Data.List.Basic
import Mathlib.Tactic.Lemma
import Wei.Text.Blank
import Wei.Text.Case
import Wei.Text.Search
import Wei.Text.Template

/-!
Texts over an alphabet. An alphabet has all characters, and it may have surrogates too. Texts that
are made out of texts over an alphabet are over the same alphabet, however they are put together,
cut or changed in case: no operation brings in a surrogate. So where a script is written in
characters, all its texts have a UTF-8 form.
-/

namespace Wei

/-- The code points of which texts are to consist. -/
class Alphabet where
  has : Point → Bool
  char (c : Char) : has (.char c) = true

namespace Alphabet

/-- Every code point. -/
@[reducible] def full : Alphabet := ⟨fun _ => true, fun _ => rfl⟩

/-- Characters only. -/
@[reducible] def chars : Alphabet := ⟨Point.isChar, fun _ => rfl⟩

/-- Texts may have any code points where nothing else is said. -/
instance (priority := low) anything : Alphabet := full

/-- Has the alphabet no surrogates? -/
def Plain (A : Alphabet) : Prop := ∀ p, A.has p = true → p.isChar = true

lemma plain_chars : chars.Plain := fun _ => id

end Alphabet

namespace Text

variable [A : Alphabet]

/-- The text is over the alphabet. -/
def Over (t : Text) : Prop := ∀ p ∈ t, A.has p = true

namespace Over

variable {t u : Text}

lemma ofString (s : String) : Over (ofString s) := by
  intro p hp
  obtain ⟨c, -, rfl⟩ := List.mem_map.mp hp
  exact A.char c

lemma nil : Over [] := nofun

lemma mono (h : Over t) (hu : u ⊆ t) : Over u := fun p hp => h p (hu hp)

lemma cons {p : Point} (hp : A.has p = true) (h : Over t) : Over (p :: t) := by
  intro q hq
  rcases List.mem_cons.mp hq with rfl | hq
  · exact hp
  · exact h q hq

lemma append (ht : Over t) (hu : Over u) : Over (t ++ u) :=
  fun p hp => (List.mem_append.mp hp).elim (ht p) (hu p)

lemma flatten {texts : List Text} (h : ∀ t ∈ texts, Over t) : Over texts.flatten := by
  intro p hp
  obtain ⟨t, ht, hp⟩ := List.mem_flatten.mp hp
  exact h t ht p hp

/-- Over an alphabet of characters, texts have a UTF-8 form. -/
lemma isPlain (h : Over t) (hA : A.Plain) : t.isPlain = true :=
  List.all_eq_true.mpr fun p hp => hA p (h p hp)

/-! ### Putting together -/

lemma intersperse {texts : List Text} (hu : Over u) (h : ∀ t ∈ texts, Over t) :
    ∀ t ∈ texts.intersperse u, Over t := by
  match texts with
  | [] => nofun
  | [t] => exact h
  | t :: t' :: rest =>
    intro w hw
    rcases List.mem_cons.mp hw with rfl | hw
    · exact h _ List.mem_cons_self
    · rcases List.mem_cons.mp hw with rfl | hw
      · exact hu
      · exact intersperse hu (fun w hw => h w (List.mem_cons_of_mem _ hw)) w hw

lemma intercalate {texts : List Text} (hu : Over u) (h : ∀ t ∈ texts, Over t) :
    Over (List.intercalate u texts) :=
  flatten (intersperse hu h)

/-- The texts of a template and those that go into its holes. -/
lemma fill {pieces : List Piece} {texts : List Text}
    (hp : ∀ p, .point p ∈ pieces → A.has p = true) (ht : ∀ t ∈ texts, Over t) :
    Over (fill pieces texts) := by
  fun_induction Text.fill pieces texts with
  | case1 texts => exact nil
  | case2 p rest texts ih =>
    exact cons (hp p List.mem_cons_self) (ih (fun q hq => hp q (List.mem_cons_of_mem _ hq)) ht)
  | case3 rest text texts ih =>
    exact append (ht text List.mem_cons_self) (ih (fun q hq => hp q (List.mem_cons_of_mem _ hq))
      fun t h => ht t (List.mem_cons_of_mem _ h))
  | case4 rest ih => exact ih (fun q hq => hp q (List.mem_cons_of_mem _ hq)) ht

/-! ### Cutting -/

lemma trimBoth (h : Over t) (p : Point → Bool) : Over (trimBoth p t) := by
  refine h.mono fun q hq => ?_
  have hq := (List.dropWhile_sublist p).subset (List.mem_reverse.mp hq)
  exact (List.dropWhile_sublist p).subset (List.mem_reverse.mp hq)

lemma splitFrom {needle acc : Text} {limit skip : Nat} (hacc : Over acc) (h : Over t) :
    ∀ piece ∈ splitFrom needle acc limit skip t, Over piece := by
  have reverse {u : Text} (hu : Over u) : Over u.reverse := hu.mono fun p => List.mem_reverse.mp
  fun_induction Text.splitFrom needle acc limit skip t with
  | case1 acc limit skip =>
    intro piece hpiece
    rw [List.mem_singleton.mp hpiece]
    exact reverse hacc
  | case2 acc limit skip c cs ih => exact ih hacc (h.mono (List.subset_cons_self c cs))
  | case3 acc c cs ih =>
    exact ih (cons (h c List.mem_cons_self) hacc) (h.mono (List.subset_cons_self c cs))
  | case4 acc limit c cs _ ih =>
    intro piece hpiece
    rcases List.mem_cons.mp hpiece with rfl | hpiece
    · exact reverse hacc
    · exact ih nil (h.mono (List.subset_cons_self c cs)) piece hpiece
  | case5 acc limit c cs _ ih =>
    exact ih (cons (h c List.mem_cons_self) hacc) (h.mono (List.subset_cons_self c cs))

lemma split (h : Over t) (needle : Text) (limit : Int) :
    ∀ piece ∈ split needle t limit, Over piece :=
  splitFrom nil h

/-- What stands in a template besides its holes stands in its text. -/
lemma template? {pieces : List Piece} (ht : template? t = .ok pieces) (h : Over t) :
    ∀ p, .point p ∈ pieces → A.has p = true := by
  have more {q : Piece} {rest : Text} {pieces : List Piece}
      (hq : ∀ p, q = .point p → A.has p = true)
      (ih : ∀ pieces, Text.template? rest = .ok pieces → ∀ p, .point p ∈ pieces → A.has p = true)
      (hm : (Text.template? rest).map (q :: ·) = .ok pieces) :
      ∀ p, .point p ∈ pieces → A.has p = true := by
    intro p hp
    cases hr : Text.template? rest with
    | error c =>
      rw [hr] at hm
      cases hm
    | ok found =>
      rw [hr] at hm
      obtain ⟨⟩ := hm
      rcases List.mem_cons.mp hp with hp | hp
      · exact hq p hp.symm
      · exact ih found hr p hp
  have brace (c : Char) : ∀ p, Piece.point (.char c) = .point p → A.has p = true := by
    rintro p ⟨⟩
    exact A.char c
  fun_induction Text.template? t generalizing pieces with
  | case1 =>
    obtain ⟨⟩ := ht
    exact nofun
  | case2 rest ih =>
    exact more (brace _) (fun _ hr => ih hr (h.mono fun q hq => by simp [hq])) ht
  | case3 rest ih =>
    exact more (q := .hole) nofun (fun _ hr => ih hr (h.mono fun q hq => by simp [hq])) ht
  | case4 => cases ht
  | case5 rest ih =>
    exact more (brace _) (fun _ hr => ih hr (h.mono fun q hq => by simp [hq])) ht
  | case6 => cases ht
  | case7 p rest _ _ _ _ _ ih =>
    refine more ?_ (fun _ hr => ih hr (h.mono (List.subset_cons_self p rest))) ht
    rintro q ⟨⟩
    exact h p List.mem_cons_self

/-! ### Letter case -/

lemma changed {c : Char → List Char} {change : Point → Text}
    (hchar : ∀ x, change (.char x) = (c x).map .char)
    (hsame : ∀ n, change (.surrogate n) = [.surrogate n])
    {p : Point} (hp : A.has p = true) : Over (change p) := by
  cases p with
  | char x =>
    rw [hchar]
    intro q hq
    obtain ⟨y, -, rfl⟩ := List.mem_map.mp hq
    exact A.char y
  | surrogate n =>
    rw [hsame]
    exact cons hp nil

lemma upper (h : Over t) : Over (upper t) := by
  intro q hq
  obtain ⟨p, hp, hq⟩ := List.mem_flatMap.mp hq
  exact changed (c := upperChar) (fun _ => rfl) (fun _ => rfl) (h p hp) q hq

lemma lowerFrom (before : Text) (h : Over t) : Over (lowerFrom before t) := by
  induction t generalizing before with
  | nil => exact nil
  | cons p rest ih =>
    refine append ?_ (ih _ (h.mono (List.subset_cons_self p rest)))
    split
    · exact cons (A.char _) nil
    · exact changed (c := lowerChar) (fun _ => rfl) (fun _ => rfl) (h p List.mem_cons_self)

lemma lower (h : Over t) : Over (lower t) := lowerFrom [] h

end Over

end Text

end Wei
