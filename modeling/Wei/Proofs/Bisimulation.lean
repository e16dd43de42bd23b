import Mathlib.Data.Finset.Card
import Mathlib.Data.Finset.Prod
import Mathlib.Data.List.Forall2
import Mathlib.Tactic.Lemma
import Wei.Operator

/-!
Equality is bisimilarity. Two values are equal exactly when some relation between values holds of
them that, wherever it holds, holds again of what the two values have in the same places. Containers
may hold themselves and each other in any way.

A comparison counts two containers as equal once it has set them against each other, and goes on to
do so when it is done with them. That is right because a comparison that finds a difference ends at
once: if it finds none, all the pairs that it has seen make up a bisimulation. It comes to an end
because it never enters a pair of containers twice.
-/

namespace Wei

namespace Store

variable {s : Store} {R R' : Value → Value → Prop} {a b c : Value}

/-! ### Bisimulations -/

/-- How two values agree, where `R` says which of the values that they hold do. Integers and strings
of the same contents are the same. -/
inductive Alike (s : Store) (R : Value → Value → Prop) : Value → Value → Prop
  | same (v : Value) : Alike s R v v
  | list {a b : Ref .list} :
    List.Forall₂ R (s.list a) (s.list b) → Alike s R (.list a) (.list b)
  | dict {a b : Ref .dict} :
    (∀ k, (s.dict a).contains k = (s.dict b).contains k) →
      (∀ k e f, (s.dict a).find? k = some e → (s.dict b).find? k = some f → R e.2 f.2) →
      Alike s R (.dict a) (.dict b)

/-- Related values are alike: what they hold in the same places is related again. -/
def Bisimulation (s : Store) (R : Value → Value → Prop) : Prop := ∀ a b, R a b → s.Alike R a b

/-- Some bisimulation relates the two values. This is the greatest bisimulation. -/
def Bisimilar (s : Store) (a b : Value) : Prop := ∃ R, s.Bisimulation R ∧ R a b

lemma Alike.mono (h : s.Alike R a b) (hR : ∀ a b, R a b → R' a b) : s.Alike R' a b := by
  cases h with
  | same => exact .same a
  | list h => exact .list (h.imp hR)
  | dict hkeys h => exact .dict hkeys fun k e f he hf => hR _ _ (h k e f he hf)

lemma Alike.symm (h : s.Alike R a b) : s.Alike (fun x y => R y x) b a := by
  cases h with
  | same => exact .same a
  | list h => exact .list h.flip
  | dict hkeys h => exact .dict (fun k => (hkeys k).symm) fun k e f he hf => h k f e hf he

lemma bisimulation_bisimilar (s : Store) : s.Bisimulation s.Bisimilar := by
  rintro a b ⟨R, hR, hab⟩
  exact (hR a b hab).mono fun x y hxy => ⟨R, hR, hxy⟩

lemma Bisimilar.refl (s : Store) (a : Value) : s.Bisimilar a a :=
  ⟨Eq, by rintro a _ rfl; exact .same a, rfl⟩

lemma Bisimilar.symm (h : s.Bisimilar a b) : s.Bisimilar b a := by
  obtain ⟨R, hR, hab⟩ := h
  exact ⟨fun x y => R y x, fun x y hxy => (hR y x hxy).symm, hab⟩

/-- What agrees with what agrees. -/
lemma Alike.comp (h : s.Alike s.Bisimilar a b) (h' : s.Alike s.Bisimilar b c) :
    s.Alike (fun x z => ∃ y, s.Bisimilar x y ∧ s.Bisimilar y z) a c := by
  cases h with
  | same => exact h'.mono fun x y hxy => ⟨x, .refl s x, hxy⟩
  | list h =>
    cases h' with
    | same => exact .list (h.imp fun x y hxy => ⟨y, hxy, .refl s y⟩)
    | list h' =>
      refine .list (List.forall₂_iff_get.mpr ⟨h.length_eq.trans h'.length_eq, fun i hi hk => ?_⟩)
      have hj := h.length_eq ▸ hi
      exact ⟨_, h.get hi hj, h'.get hj hk⟩
  | dict hkeys h =>
    cases h' with
    | same => exact .dict hkeys fun k e f he hf => ⟨f.2, h k e f he hf, .refl s f.2⟩
    | dict hkeys' h' =>
      refine .dict (fun k => (hkeys k).trans (hkeys' k)) fun k e g he hg => ?_
      have hb : (s.dict _).contains k = true := (hkeys k).symm.trans (Option.isSome_of_mem he)
      obtain ⟨f, hf⟩ := Option.isSome_iff_exists.mp hb
      exact ⟨f.2, h k e f he hf, h' k f g hf hg⟩

lemma Bisimilar.trans (h : s.Bisimilar a b) (h' : s.Bisimilar b c) : s.Bisimilar a c := by
  refine ⟨fun x z => ∃ y, s.Bisimilar x y ∧ s.Bisimilar y z, ?_, b, h, h'⟩
  rintro x z ⟨y, hxy, hyz⟩
  exact (s.bisimulation_bisimilar x y hxy).comp (s.bisimulation_bisimilar y z hyz)

/-! ### What a comparison looks at -/

/-- An operation that may refuse, done to the elements of a list one after the other. -/
lemma exists_mapM_eq_some_iff {α β : Type} {f : α → Option β} {P : β → Prop} {xs : List α} :
    (∃ ys, xs.mapM f = some ys ∧ ∀ y ∈ ys, P y) ↔ ∀ x ∈ xs, ∃ y, f x = some y ∧ P y := by
  induction xs with
  | nil => simp
  | cons x rest ih =>
    rw [List.forall_mem_cons, ← ih, List.mapM_cons]
    constructor
    · rintro ⟨ys, hys, hP⟩
      obtain ⟨y, hy, hys⟩ := Option.bind_eq_some_iff.mp hys
      obtain ⟨ys', hys', h⟩ := Option.bind_eq_some_iff.mp hys
      obtain rfl := Option.some_inj.mp h
      rw [List.forall_mem_cons] at hP
      exact ⟨⟨y, hy, hP.1⟩, ys', hys', hP.2⟩
    · rintro ⟨⟨y, hy, hPy⟩, ys, hys, hP⟩
      refine ⟨y :: ys, ?_, List.forall_mem_cons.mpr ⟨hPy, hP⟩⟩
      rw [hy, hys]
      rfl

lemma sharedKeys?_spec {d d' : Dict} :
    (∃ pairs, sharedKeys? d d' = some pairs ∧ ∀ p ∈ pairs, R p.1 p.2) ↔
      (∀ k, d.contains k = d'.contains k) ∧
        ∀ k e f, d.find? k = some e → d'.find? k = some f → R e.2 f.2 := by
  unfold sharedKeys?
  split
  · next hback =>
    rw [exists_mapM_eq_some_iff]
    constructor
    · intro h
      have hthere (k : HashKey) (e : Value × Value) (he : d.find? k = some e) :
          ∃ f, d'.find? k = some f ∧ R e.2 f.2 := by
        obtain ⟨p, hp, hR⟩ := h (k, e) (OrderedMap.find?_eq_some_iff.mp he)
        obtain ⟨f, hf, rfl⟩ := Option.map_eq_some_iff.mp hp
        exact ⟨f, hf, hR⟩
      refine ⟨fun k => Bool.eq_iff_iff.mpr ⟨fun hk => ?_, fun hk => ?_⟩, fun k e f he hf => ?_⟩
      · obtain ⟨e, he⟩ := Option.isSome_iff_exists.mp hk
        obtain ⟨f, hf, -⟩ := hthere k e he
        exact Option.isSome_of_mem hf
      · exact List.all_eq_true.mp hback k ((OrderedMap.contains_iff d' k).mp hk)
      · obtain ⟨f', hf', hR⟩ := hthere k e he
        obtain rfl := Option.some_inj.mp (hf'.symm.trans hf)
        exact hR
    · rintro ⟨hkeys, h⟩ ⟨k, e⟩ he
      have he := OrderedMap.find?_eq_some_iff.mpr he
      have hk : d'.contains k = true := (hkeys k).symm.trans (Option.isSome_of_mem he)
      obtain ⟨f, hf⟩ := Option.isSome_iff_exists.mp hk
      exact ⟨(e.2, f.2), by rw [hf]; rfl, h k e f he hf⟩
  · next hback =>
    refine iff_of_false (by simp) fun h => hback (List.all_eq_true.mpr fun k hk => ?_)
    exact (h.1 k).trans ((OrderedMap.contains_iff d' k).mpr hk)

/-- **Different values are alike if what faces each other in them is related.** -/
lemma alike_iff (hab : a ≠ b) :
    s.Alike R a b ↔ ∃ pairs, s.facing? a b = some pairs ∧ ∀ p ∈ pairs, R p.1 p.2 := by
  constructor
  · intro h
    cases h with
    | same => exact absurd rfl hab
    | list h =>
      obtain ⟨hlen, h⟩ := List.forall₂_iff_zip.mp h
      exact ⟨_, if_pos hlen, fun p hp => h hp⟩
    | dict hkeys h => exact sharedKeys?_spec.mpr ⟨hkeys, h⟩
  · rintro ⟨pairs, hpairs, h⟩
    unfold facing? at hpairs
    split at hpairs
    · split at hpairs
      · next hlen =>
        obtain rfl := Option.some_inj.mp hpairs
        exact .list (List.forall₂_iff_zip.mpr ⟨hlen, fun hp => h _ hp⟩)
      · cases hpairs
    · obtain ⟨hkeys, h⟩ := sharedKeys?_spec.mp ⟨pairs, hpairs, h⟩
      exact .dict hkeys h
    · cases hpairs

/-! ### One step of a comparison -/

section Step

variable {depth : Nat} {seen pairs : List (Value × Value)}

lemma meet_of_met (h : a = b ∨ (a, b) ∈ seen) : s.meet depth seen a b = .ok seen := by
  unfold meet
  exact if_pos h

lemma meet_of_unlike (h : ¬ (a = b ∨ (a, b) ∈ seen)) (hf : s.facing? a b = none) :
    s.meet depth seen a b = .error .differ := by
  unfold meet
  simp only [h, hf, if_false]

lemma meet_zero (h : ¬ (a = b ∨ (a, b) ∈ seen)) (hf : s.facing? a b = some pairs) :
    s.meet 0 seen a b = .error .tooDeep := by
  unfold meet
  simp only [h, hf, if_false]

lemma meet_succ (h : ¬ (a = b ∨ (a, b) ∈ seen)) (hf : s.facing? a b = some pairs) :
    s.meet (depth + 1) seen a b =
      pairs.foldlM (fun seen p => s.meet depth seen p.1 p.2) ((a, b) :: seen) := by
  conv => lhs; unfold meet
  simp only [h, hf, if_false]

end Step

/-! ### What a comparison comes to -/

/-- The pairs that face each other in a pair have all been seen, or are of one and the same
value. -/
def Covered (s : Store) (out : List (Value × Value)) (p : Value × Value) : Prop :=
  ∃ pairs, s.facing? p.1 p.2 = some pairs ∧ ∀ q ∈ pairs, q.1 = q.2 ∨ q ∈ out

/-- Between `seen` and `out` a comparison has seen more pairs, and has been through all of these. -/
structure Progress (s : Store) (seen out : List (Value × Value)) : Prop where
  kept : seen ⊆ out
  covered : ∀ p ∈ out, p ∈ seen ∨ s.Covered out p

lemma Covered.mono {out out' : List (Value × Value)} {p : Value × Value} (h : s.Covered out p)
    (hout : out ⊆ out') : s.Covered out' p := by
  obtain ⟨pairs, hpairs, h⟩ := h
  exact ⟨pairs, hpairs, fun q hq => (h q hq).imp_right (hout ·)⟩

lemma Progress.refl (seen : List (Value × Value)) : s.Progress seen seen :=
  ⟨List.Subset.refl seen, fun _ hp => .inl hp⟩

lemma Progress.trans {seen mid out : List (Value × Value)} (h : s.Progress seen mid)
    (h' : s.Progress mid out) : s.Progress seen out := by
  refine ⟨fun p hp => h'.kept (h.kept hp), fun p hp => ?_⟩
  rcases h'.covered p hp with hp | hp
  · exact (h.covered p hp).imp_right (·.mono h'.kept)
  · exact .inr hp

/-- Comparisons one after the other. -/
lemma progress_foldlM {f : List (Value × Value) → Value × Value →
    Except Mismatch (List (Value × Value))} {pairs seen out : List (Value × Value)}
    (hf : ∀ seen p out, f seen p = .ok out → s.Progress seen out ∧ (p.1 = p.2 ∨ p ∈ out))
    (h : pairs.foldlM f seen = .ok out) :
    s.Progress seen out ∧ ∀ p ∈ pairs, p.1 = p.2 ∨ p ∈ out := by
  induction pairs generalizing seen with
  | nil =>
    obtain ⟨⟩ := h
    exact ⟨.refl _, nofun⟩
  | cons p rest ih =>
    rw [List.foldlM_cons] at h
    cases hmid : f seen p with
    | error e =>
      rw [hmid] at h
      cases h
    | ok mid =>
      rw [hmid] at h
      obtain ⟨hp, hmet⟩ := hf seen p mid hmid
      obtain ⟨hrest, hall⟩ := ih h
      exact ⟨hp.trans hrest, List.forall_mem_cons.mpr ⟨hmet.imp_right (hrest.kept ·), hall⟩⟩

/-- A comparison that finds no difference has been through all the pairs that it has newly seen. -/
lemma progress_of_meet {depth : Nat} {seen out : List (Value × Value)}
    (h : s.meet depth seen a b = .ok out) : s.Progress seen out ∧ (a = b ∨ (a, b) ∈ out) := by
  induction depth generalizing seen out a b with
  | zero =>
    by_cases hmet : a = b ∨ (a, b) ∈ seen
    · rw [meet_of_met hmet] at h
      obtain ⟨⟩ := h
      exact ⟨.refl _, hmet⟩
    · cases hf : s.facing? a b with
      | none =>
        rw [meet_of_unlike hmet hf] at h
        cases h
      | some pairs =>
        rw [meet_zero hmet hf] at h
        cases h
  | succ depth ih =>
    by_cases hmet : a = b ∨ (a, b) ∈ seen
    · rw [meet_of_met hmet] at h
      obtain ⟨⟩ := h
      exact ⟨.refl _, hmet⟩
    · cases hf : s.facing? a b with
      | none =>
        rw [meet_of_unlike hmet hf] at h
        cases h
      | some pairs =>
        rw [meet_succ hmet hf] at h
        obtain ⟨hp, hall⟩ := progress_foldlM (fun seen p out => ih) h
        have hab : (a, b) ∈ out := hp.kept List.mem_cons_self
        refine ⟨⟨fun p hmem => hp.kept (List.mem_cons_of_mem _ hmem), fun p hmem => ?_⟩, .inr hab⟩
        rcases hp.covered p hmem with hmem | hcov
        · rcases List.mem_cons.mp hmem with rfl | hmem
          · exact .inr ⟨pairs, hf, hall⟩
          · exact .inl hmem
        · exact .inr hcov

/-- **What a comparison finds equal is bisimilar**: the pairs that it has seen are a
bisimulation. -/
theorem bisimilar_of_meet {depth : Nat} {out : List (Value × Value)}
    (h : s.meet depth [] a b = .ok out) : s.Bisimilar a b := by
  obtain ⟨hp, hab⟩ := progress_of_meet h
  refine ⟨fun x y => x = y ∨ (x, y) ∈ out, fun x y hxy => ?_, hab⟩
  by_cases heq : x = y
  · exact heq ▸ .same x
  · have hmem := hxy.resolve_left heq
    exact (alike_iff heq).mpr ((hp.covered _ hmem).resolve_left (by simp))

/-! ### Comparisons that fail -/

/-- If doing something for the elements of a list fails, it fails for one of them, in a state to
which the elements before it have led. -/
lemma exists_of_foldlM_eq_error {α β ε : Type} {f : β → α → Except ε β} {I : β → Prop}
    (hI : ∀ b x b', f b x = .ok b' → I b → I b') {xs : List α} {b : β} {e : ε} (hb : I b)
    (h : xs.foldlM f b = .error e) : ∃ x ∈ xs, ∃ b', I b' ∧ f b' x = .error e := by
  induction xs generalizing b with
  | nil => cases h
  | cons x rest ih =>
    rw [List.foldlM_cons] at h
    cases hx : f b x with
    | error e' =>
      rw [hx] at h
      obtain ⟨⟩ := h
      exact ⟨x, List.mem_cons_self, b, hb, hx⟩
    | ok b' =>
      rw [hx] at h
      obtain ⟨y, hy, hfail⟩ := ih (hI b x b' hx hb) h
      exact ⟨y, List.mem_cons_of_mem x hy, hfail⟩

/-- **Bisimilar values do not differ.** -/
theorem meet_ne_differ (hR : s.Bisimulation R) (depth : Nat) (seen : List (Value × Value))
    (hab : R a b) : s.meet depth seen a b ≠ .error .differ := by
  induction depth generalizing seen a b with
  | zero =>
    intro h
    by_cases hmet : a = b ∨ (a, b) ∈ seen
    · rw [meet_of_met hmet] at h
      cases h
    · obtain ⟨pairs, hf, -⟩ := (alike_iff fun heq => hmet (.inl heq)).mp (hR a b hab)
      rw [meet_zero hmet hf] at h
      cases h
  | succ depth ih =>
    intro h
    by_cases hmet : a = b ∨ (a, b) ∈ seen
    · rw [meet_of_met hmet] at h
      cases h
    · obtain ⟨pairs, hf, hall⟩ := (alike_iff fun heq => hmet (.inl heq)).mp (hR a b hab)
      rw [meet_succ hmet hf] at h
      obtain ⟨p, hp, seen', -, hfail⟩ :=
        exists_of_foldlM_eq_error (I := fun _ => True) (fun _ _ _ _ _ => trivial) trivial h
      exact ih seen' (hall p hp) hfail

/-! ### Comparisons come to an end -/

/-- All pairs of lists, and all pairs of dictionaries, that there are. -/
def pairsOfContainers (s : Store) : Finset (Value × Value) :=
  (Finset.range s.lists.size ×ˢ Finset.range s.lists.size).image
      (fun i => (.list ⟨i.1⟩, .list ⟨i.2⟩)) ∪
    (Finset.range s.dicts.size ×ˢ Finset.range s.dicts.size).image
      fun i => (.dict ⟨i.1⟩, .dict ⟨i.2⟩)

lemma card_pairsOfContainers (s : Store) : s.pairsOfContainers.card ≤ s.containerPairs := by
  refine (Finset.card_union_le _ _).trans (Nat.add_le_add ?_ ?_)
  · exact Finset.card_image_le.trans (by simp)
  · exact Finset.card_image_le.trans (by simp)

/-- Only containers that are there have something in them that faces each other. -/
lemma mem_pairsOfContainers {pairs : List (Value × Value)} (h : s.facing? a b = some pairs)
    {p : Value × Value} (hp : p ∈ pairs) : (a, b) ∈ s.pairsOfContainers := by
  unfold facing? at h
  split at h
  · next i j =>
    split at h
    · obtain rfl := Option.some_inj.mp h
      obtain ⟨hi, hj⟩ := List.of_mem_zip hp
      have live {r : Ref .list} {v : Value} (hv : v ∈ s.list r) : r.index < s.lists.size := by
        by_contra hr
        rw [list, Arena.get_of_size_le _ (Nat.le_of_not_lt hr)] at hv
        cases hv
      refine Finset.mem_union_left _ (Finset.mem_image.mpr ⟨(i.index, j.index), ?_, rfl⟩)
      simp [live hi, live hj]
    · cases h
  · next i j =>
    have live {r : Ref .dict} {k : HashKey} {e : Value × Value}
        (he : (s.dict r).find? k = some e) : r.index < s.dicts.size := by
      by_contra hr
      rw [dict, Arena.get_of_size_le _ (Nat.le_of_not_lt hr)] at he
      cases he
    have hkeys := ((sharedKeys?_spec (R := fun _ _ => True)).mp ⟨pairs, h, fun _ _ => trivial⟩).1
    obtain ⟨pairs', h', hall⟩ := (sharedKeys?_spec (R := fun _ _ => ∃ k e f,
      (s.dict i).find? k = some e ∧ (s.dict j).find? k = some f)).mpr
      ⟨hkeys, fun k e f he hf => ⟨k, e, f, he, hf⟩⟩
    obtain rfl := Option.some_inj.mp (h'.symm.trans h)
    obtain ⟨k, e, f, he, hf⟩ := hall p hp
    refine Finset.mem_union_right _ (Finset.mem_image.mpr ⟨(i.index, j.index), ?_, rfl⟩)
    simp [live he, live hf]
  · cases h

/-- How many pairs of containers a comparison has not seen yet. -/
def unseen (s : Store) (seen : List (Value × Value)) : Nat :=
  (s.pairsOfContainers \ seen.toFinset).card

lemma unseen_le_of_subset {seen seen' : List (Value × Value)} (h : seen ⊆ seen') :
    s.unseen seen' ≤ s.unseen seen := by
  refine Finset.card_le_card (Finset.sdiff_subset_sdiff (Finset.Subset.refl _) fun p hp => ?_)
  exact List.mem_toFinset.mpr (h (List.mem_toFinset.mp hp))

/-- Entering a pair of containers leaves one less to be seen. -/
lemma unseen_cons_lt {seen : List (Value × Value)} {p : Value × Value}
    (hp : p ∈ s.pairsOfContainers) (hnew : p ∉ seen) : s.unseen (p :: seen) < s.unseen seen := by
  refine Finset.card_lt_card (Finset.ssubset_iff_of_subset ?_ |>.mpr ⟨p, ?_, ?_⟩)
  · exact Finset.sdiff_subset_sdiff (Finset.Subset.refl _) (by simp)
  · simp [hp, hnew]
  · simp

/-- **A comparison does not go deeper than there are pairs of containers to be seen.** -/
theorem meet_ne_tooDeep {depth : Nat} {seen : List (Value × Value)}
    (hdepth : s.unseen seen < depth) : s.meet depth seen a b ≠ .error .tooDeep := by
  induction depth generalizing seen a b with
  | zero => exact absurd hdepth (Nat.not_lt_zero _)
  | succ depth ih =>
    intro h
    by_cases hmet : a = b ∨ (a, b) ∈ seen
    · rw [meet_of_met hmet] at h
      cases h
    · cases hf : s.facing? a b with
      | none =>
        rw [meet_of_unlike hmet hf] at h
        cases h
      | some pairs =>
        rw [meet_succ hmet hf] at h
        obtain ⟨p, hp, seen', hseen, hfail⟩ :=
          exists_of_foldlM_eq_error (I := fun seen' => (a, b) :: seen ⊆ seen')
            (fun seen₁ q seen₂ hq hsub r hr => (progress_of_meet hq).1.kept (hsub hr))
            (List.Subset.refl _) h
        have hlt := unseen_cons_lt (mem_pairsOfContainers hf hp) fun hab => hmet (.inr hab)
        have hle : s.unseen seen' ≤ s.unseen ((a, b) :: seen) := unseen_le_of_subset hseen
        exact ih (by omega) hfail

/-- There are no more pairs of containers to be seen than pairs of containers. -/
lemma unseen_le_containerPairs (s : Store) (seen : List (Value × Value)) :
    s.unseen seen ≤ s.containerPairs :=
  (Finset.card_le_card Finset.sdiff_subset).trans s.card_pairsOfContainers

/-- A comparison that may go as deep as there are pairs of containers decides bisimilarity. -/
theorem meet_isOk_iff {depth : Nat} (hdepth : s.containerPairs < depth) :
    (s.meet depth [] a b).isOk = true ↔ s.Bisimilar a b := by
  constructor
  · intro h
    cases hmeet : s.meet depth [] a b with
    | ok out => exact bisimilar_of_meet hmeet
    | error e =>
      rw [hmeet] at h
      cases h
  · rintro ⟨R, hR, hab⟩
    have hagree := meet_ne_differ hR depth [] hab
    cases hmeet : s.meet depth [] a b with
    | ok out => rfl
    | error e =>
      cases e with
      | differ => exact absurd hmeet hagree
      | tooDeep =>
        exact absurd hmeet (meet_ne_tooDeep ((s.unseen_le_containerPairs []).trans_lt hdepth))

lemma equal_iff_bisimilar : s.equal a b = true ↔ s.Bisimilar a b :=
  meet_isOk_iff (Nat.lt_succ_self _)

/-- Integers are equal if they are the same. -/
lemma equal_int (s : Store) (m n : Int64) : s.equal (.int m) (.int n) = decide (m = n) := by
  by_cases h : m = n
  · subst h
    rw [decide_eq_true rfl]
    exact equal_iff_bisimilar.mpr (.refl s _)
  · rw [decide_eq_false h, ← Bool.not_eq_true, equal_iff_bisimilar]
    intro hb
    cases s.bisimulation_bisimilar _ _ hb
    exact h rfl

end Store

/-- The two operators of equality answer whether their operands are equal, whatever these are. -/
lemma BinaryOp.apply_equality (s : Store) (a b : Value) :
    BinaryOp.eq.apply s a b = .ok (.bool (s.equal a b)) ∧
      BinaryOp.ne.apply s a b = .ok (.bool (!s.equal a b)) := by
  unfold BinaryOp.apply
  dsimp only
  split
  · next m n => simp [onIntegers?, compute?, s.equal_int m n, Int64.toInt_inj]
  · exact ⟨rfl, rfl⟩
  · exact ⟨rfl, rfl⟩

/-- **Equality decides bisimilarity.** A comparison comes to an end however lists and dictionaries
hold each other, and answers true exactly if some bisimulation relates the two values. The operators
of equality never fail, that on integers agrees with equality of values, and equality is reflexive,
symmetric and transitive. -/
theorem Store.equal_decides_bisimilarity (s : Store) :
    (∀ a b depth, s.containerPairs < depth → s.meet depth [] a b ≠ .error .tooDeep ∧
      (s.meet depth [] a b).isOk = s.equal a b) ∧
    (∀ a b, s.equal a b = true ↔ ∃ R, s.Bisimulation R ∧ R a b) ∧
    (∀ a b, BinaryOp.eq.apply s a b = .ok (.bool (s.equal a b)) ∧
      BinaryOp.ne.apply s a b = .ok (.bool (!s.equal a b))) ∧
    (∀ m n, BinaryOp.eq.onIntegers? m n = some (.ok (.bool (s.equal (.int m) (.int n))))) ∧
    Equivalence fun a b => s.equal a b = true := by
  refine ⟨fun a b depth hdepth => ⟨?_, ?_⟩, fun a b => equal_iff_bisimilar,
    BinaryOp.apply_equality s, fun m n => ?_, ?_⟩
  · exact meet_ne_tooDeep ((s.unseen_le_containerPairs []).trans_lt hdepth)
  · exact Bool.eq_iff_iff.mpr ((meet_isOk_iff hdepth).trans equal_iff_bisimilar.symm)
  · simp only [BinaryOp.onIntegers?, BinaryOp.compute?, equal_int, Int64.toInt_inj]
  · simp only [equal_iff_bisimilar]
    exact ⟨Bisimilar.refl s, Bisimilar.symm, Bisimilar.trans⟩

/-- A list that holds itself, and two lists that hold each other, cannot be told apart. -/
theorem Store.rings_are_equal :
    let s : Store := { Store.initial with lists := ⟨#[[.list ⟨0⟩], [.list ⟨2⟩], [.list ⟨1⟩]]⟩ }
    s.containerPairs < 10 ∧ s.equal (.list ⟨0⟩) (.list ⟨1⟩) = true ∧
      s.meet 10 [] (.list ⟨0⟩) (.list ⟨1⟩) ≠ .error .tooDeep ∧
      ∃ R, s.Bisimulation R ∧ R (.list ⟨0⟩) (.list ⟨1⟩) := by
  intro s
  have hdepth : s.containerPairs < 10 := by decide
  have hequal : s.equal (.list ⟨0⟩) (.list ⟨1⟩) = true := by decide
  obtain ⟨hends, hdecides, -⟩ := Store.equal_decides_bisimilarity s
  exact ⟨hdepth, hequal, (hends _ _ 10 hdepth).1, (hdecides _ _).mp hequal⟩

end Wei
