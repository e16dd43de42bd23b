import Mathlib.Data.List.Basic
import Wei.Item
import Wei.ListMethod
import Wei.Proofs.Sound

/-!
Lists are sequences of values. Each method has a rule: the arguments that it takes, what it answers,
and what becomes of the elements, told by cutting the sequence where something is put in or taken
out. A method does what its rule says, and where the rule does not apply it ends in a fault. In the
first case the list itself is all that changes in the store, in the second nothing changes, whatever
the arguments are and however they are shared.
-/

namespace Wei

/-! ### Positions -/

namespace Position

/-- Position `i` stands for place `k` in a sequence of length `n`: it is in range, and negative ones
count from the end. -/
structure Names (i : Int) (n k : Nat) : Prop where
  lower : -n ≤ i
  upper : i < n
  place : (k : Int) = i % n

variable {i : Int} {n k : Nat}

lemma fromFront_eq_emod (hlower : -n ≤ i) (hupper : i < n) : fromFront i n = i % n := by
  unfold fromFront
  split
  · next hneg => rw [← Int.add_emod_right, Int.emod_eq_of_lt (by omega) (by omega)]
  · next hneg => rw [Int.emod_eq_of_lt (by omega) hupper]

lemma exists_names_iff : (∃ k, Names i n k) ↔ -n ≤ i ∧ i < n := by
  constructor
  · rintro ⟨k, h⟩
    exact ⟨h.lower, h.upper⟩
  · rintro ⟨hlower, hupper⟩
    have hpos : 0 ≤ i % n := Int.emod_nonneg i (by omega)
    exact ⟨(i % n).toNat, hlower, hupper, Int.toNat_of_nonneg hpos⟩

lemma Names.lt (h : Names i n k) : k < n := by
  have hlower := h.lower
  have hupper := h.upper
  have hplace := h.place
  have hlt : i % n < n := Int.emod_lt_of_pos i (by omega)
  omega

lemma Names.toNat_emod (h : Names i n k) : (i % n).toNat = k := by
  rw [← h.place, Int.toNat_natCast]

lemma names_self (h : k < n) : Names k n k :=
  ⟨by omega, by omega, (Int.emod_eq_of_lt (by omega) (by omega)).symm⟩

/-- **The place of an element is found exactly if the position is in range.** -/
lemma index?_eq_some_iff : index? i n = some k ↔ Names i n k := by
  have hrange : 0 ≤ fromFront i n ∧ fromFront i n < n ↔ -n ≤ i ∧ i < n := by
    unfold fromFront
    split <;> omega
  unfold index?
  simp only [hrange]
  split
  · next h =>
    rw [Option.some_inj, fromFront_eq_emod h.1 h.2]
    have hpos : 0 ≤ i % n := Int.emod_nonneg i (by omega)
    exact ⟨fun hk => ⟨h.1, h.2, by omega⟩, fun hk => by have := hk.place; omega⟩
  · next h => exact iff_of_false nofun fun hk => h ⟨hk.lower, hk.upper⟩

lemma index?_eq_none_iff : index? i n = none ↔ ¬ (-n ≤ i ∧ i < n) := by
  rw [← exists_names_iff, Option.eq_none_iff_forall_ne_some, not_exists]
  exact forall_congr' fun k => not_congr index?_eq_some_iff

end Position

/-! ### Rules -/

open Position (Names)

/-- **What a method makes of the elements `xs`**: the arguments that it takes, what it answers
instead of the list itself, and the elements afterwards. -/
inductive ListMethod.Rule (s : Store) (xs : List Value) :
    ListMethod → List Value → Option Value → List Value → Prop
  | append {args : List Value} : args ≠ [] → Rule s xs .append args none (xs ++ args)
  | extend (q : Ref .list) : Rule s xs .extend [.list q] none (xs ++ s.list q)
  | insert {before behind : List Value} {i : Int64} (v : Value) : xs = before ++ behind →
    before.length = Position.clamp i.toInt xs.length →
    Rule s xs .insert [.int i, v] none (before ++ v :: behind)
  | popLast {before : List Value} {v : Value} : xs = before ++ [v] →
    Rule s xs .pop [] (some v) before
  | pop {before behind : List Value} {v : Value} {i : Int64} : xs = before ++ v :: behind →
    Names i.toInt xs.length before.length → Rule s xs .pop [.int i] (some v) (before ++ behind)
  | remove {before behind : List Value} {x v : Value} : xs = before ++ x :: behind →
    s.equal x v = true → (∀ y ∈ before, s.equal y v = false) →
    Rule s xs .remove [v] none (before ++ behind)
  | reverse : Rule s xs .reverse [] none xs.reverse

/-- All that is different in `s'` is the list `r`, which has the elements `xs` there. -/
structure Store.OnlyList (s : Store) (r : Ref .list) (xs : List Value) (s' : Store) : Prop where
  elements : s'.list r = xs
  others {k : Kind} (q : Ref k) : (⟨k, q⟩ : Σ k, Ref k) ≠ ⟨.list, r⟩ → s'.read q = s.read q
  addresses : s'.addresses = s.addresses
  census : r.Live s.census → s'.census = s.census

namespace Store.OnlyList

variable {s s₁ s₂ : Store} {r : Ref .list} {xs ys : List Value}

lemma setList (s : Store) (r : Ref .list) (xs : List Value) : s.OnlyList r xs (s.setList r xs) where
  elements := Arena.get_set_self ..
  others _ hq :=
    Store.read_write_induction (k := .list) s
      (P := fun {j} q y => (⟨j, q⟩ : Σ k, Ref k) ≠ ⟨.list, r⟩ → y = s.read q)
      (fun h => absurd rfl h) (fun _ => rfl) hq
  addresses := rfl
  census hr := Store.census_write (k := .list) s hr xs

lemma trans (h : s.OnlyList r xs s₁) (h' : s₁.OnlyList r ys s₂) : s.OnlyList r ys s₂ where
  elements := h'.elements
  others q hq := (h'.others q hq).trans (h.others q hq)
  addresses := h'.addresses.trans h.addresses
  census hr := by
    have hn := h.census hr
    rw [h'.census (hn ▸ hr), hn]

end Store.OnlyList

namespace ListMethod

variable {s : Store} {r : Ref .list} {xs before behind args : List Value} {v : Value}

/-! ### Cutting a sequence -/

lemma getElem?_append_cons (before behind : List Value) (v : Value) :
    (before ++ v :: behind)[before.length]? = some v := by
  simp

lemma eraseIdx_append_cons (before behind : List Value) (v : Value) :
    (before ++ v :: behind).eraseIdx before.length = before ++ behind := by
  simp [List.eraseIdx_append]

lemma insertIdx_append (before behind : List Value) (v : Value) :
    (before ++ behind).insertIdx before.length v = before ++ v :: behind := by
  simpa [List.insertIdx] using List.modifyTailIdx_add (List.cons v) 0 before behind

lemma set_append_cons (before behind : List Value) (x v : Value) :
    (before ++ x :: behind).set before.length v = before ++ v :: behind := by
  simp

/-- A sequence can be cut where a value is put in. -/
lemma exists_cut_of_clamp (i : Int) (xs : List Value) :
    ∃ before behind, xs = before ++ behind ∧ before.length = Position.clamp i xs.length := by
  obtain ⟨hlower, hupper⟩ := Position.clamp_mem i xs.length
  refine ⟨xs.take (Position.clamp i xs.length).toNat, xs.drop (Position.clamp i xs.length).toNat,
    (List.take_append_drop ..).symm, ?_⟩
  rw [List.length_take_of_le (by omega), Int.toNat_of_nonneg hlower]

lemma insertIdx_of_cut {i : Int} (hxs : xs = before ++ behind)
    (hk : before.length = Position.clamp i xs.length) (v : Value) :
    xs.insertIdx (Position.clamp i xs.length).toNat v = before ++ v :: behind := by
  rw [← hk, Int.toNat_natCast, hxs, insertIdx_append]

/-- A sequence can be cut at each of its elements. -/
lemma exists_cut {k : Nat} (hk : k < xs.length) :
    ∃ before v behind, xs = before ++ v :: behind ∧ before.length = k := by
  refine ⟨xs.take k, xs[k], xs.drop (k + 1), ?_, List.length_take_of_le (Nat.le_of_lt hk)⟩
  rw [List.getElem_cons_drop, List.take_append_drop]

/-- A position in range tells where to cut. -/
lemma exists_cut_of_range {i : Int} (h : -(xs.length : Int) ≤ i ∧ i < xs.length) :
    ∃ before v behind, xs = before ++ v :: behind ∧ Names i xs.length before.length := by
  obtain ⟨k, hk⟩ := Position.exists_names_iff.mpr h
  obtain ⟨before, v, behind, hxs, rfl⟩ := exists_cut hk.lt
  exact ⟨before, v, behind, hxs, hk⟩

/-! ### What the methods do -/

lemma call_of_change {m : ListMethod} {c : Change} (h : change s (s.list r) args m = .ok c) :
    ∃ s', m.call r args s = .ok (c.answer.getD (.list r)) s' ∧ s.OnlyList r c.elements s' := by
  refine ⟨s.setList r c.elements, ?_, .setList ..⟩
  unfold call
  rw [h]

lemma call_of_fault {m : ListMethod} {f : Fault} (h : change s (s.list r) args m = .error f) :
    m.call r args s = .error f s := by
  unfold call
  rw [h]

lemma popped_of_names {i : Option Int}
    (h : Names (i.getD (-1)) (before ++ v :: behind).length before.length) :
    popped (before ++ v :: behind) i = .ok ⟨before ++ behind, some v⟩ := by
  have hsome : (before ++ v :: behind).isEmpty = false := by simp
  have hget : (before ++ v :: behind).getD before.length .null = v := by simp
  unfold popped
  rw [hsome, if_neg Bool.false_ne_true, Position.index?_eq_some_iff.mpr h]
  dsimp only
  rw [eraseIdx_append_cons, hget]

lemma names_last (before : List Value) (v : Value) :
    Names (-1) (before ++ [v]).length before.length := by
  have hlength : (before ++ [v]).length = before.length + 1 := List.length_append
  rw [hlength]
  refine ⟨by omega, by omega, ?_⟩
  rw [← Position.fromFront_eq_emod (by omega) (by omega)]
  unfold Position.fromFront
  omega

/-- Nothing is behind the last element. -/
lemma behind_last (h : Names (-1) (before ++ v :: behind).length before.length) : behind = [] := by
  have hplace := h.place
  rw [← Position.fromFront_eq_emod h.lower h.upper, List.length_append, List.length_cons] at hplace
  unfold Position.fromFront at hplace
  exact List.length_eq_zero_iff.mp (by omega)

lemma popped_of_out_of_range {i : Option Int}
    (h : ¬ (-(xs.length : Int) ≤ i.getD (-1) ∧ i.getD (-1) < xs.length)) :
    ∃ f, popped xs i = .error f := by
  unfold popped
  split
  · exact ⟨_, rfl⟩
  · rw [Position.index?_eq_none_iff.mpr h]
    exact ⟨_, rfl⟩

/-- The first element that something holds of has nothing of that kind before it. -/
lemma exists_cut_of_findIdx? {p : Value → Bool} {k : Nat} (h : xs.findIdx? p = some k) :
    ∃ before x behind, xs = before ++ x :: behind ∧ before.length = k ∧ p x = true ∧
      ∀ y ∈ before, p y = false := by
  obtain ⟨hk, hp, hmin⟩ := List.findIdx?_eq_some_iff_getElem.mp h
  obtain ⟨before, x, behind, rfl, rfl⟩ := exists_cut hk
  refine ⟨before, x, behind, rfl, rfl, by simpa using hp, fun y hy => ?_⟩
  obtain ⟨j, hj, rfl⟩ := List.getElem_of_mem hy
  simpa [List.getElem_append_left hj] using hmin j hj

lemma removed_of_first {x : Value} (hx : s.equal x v = true)
    (hbefore : ∀ y ∈ before, s.equal y v = false) :
    removed s (before ++ x :: behind) v = .ok ⟨before ++ behind, none⟩ := by
  have hfind : (before ++ x :: behind).findIdx? (s.equal · v) = some before.length := by
    rw [List.findIdx?_append, List.findIdx?_eq_none_iff.mpr hbefore, List.findIdx?_cons, hx]
    simp
  unfold removed
  rw [hfind]
  dsimp only
  rw [eraseIdx_append_cons]

/-- **A method does what its rule says**, and only the list itself changes. -/
lemma Rule.call {m : ListMethod} {answer : Option Value} {ys : List Value}
    (h : Rule s (s.list r) m args answer ys) :
    ∃ s', m.call r args s = .ok (answer.getD (.list r)) s' ∧ s.OnlyList r ys s' := by
  refine call_of_change (c := ⟨ys, answer⟩) ?_
  generalize s.list r = xs at h
  cases h with
  | append hargs => exact if_neg (mt List.isEmpty_iff.mp hargs)
  | extend q => rfl
  | insert v hxs hk =>
    exact congrArg (fun l => Except.ok (⟨l, none⟩ : Change)) (insertIdx_of_cut hxs hk v)
  | @popLast _ v hxs =>
    subst hxs
    have hpop : popped (ys ++ [v]) none = .ok ⟨ys ++ [], some v⟩ :=
      popped_of_names (names_last ys v)
    rwa [List.append_nil] at hpop
  | pop hxs hi =>
    subst hxs
    exact popped_of_names hi
  | remove hxs hx hbefore =>
    subst hxs
    exact removed_of_first hx hbefore
  | reverse => rfl

lemma exists_pop_rule {i : Option Int} {c : Change} (h : popped xs i = .ok c) :
    ∃ before v behind, xs = before ++ v :: behind ∧
      Names (i.getD (-1)) xs.length before.length ∧ c = ⟨before ++ behind, some v⟩ := by
  by_cases hrange : -(xs.length : Int) ≤ i.getD (-1) ∧ i.getD (-1) < xs.length
  · obtain ⟨before, v, behind, rfl, hi⟩ := exists_cut_of_range hrange
    exact ⟨before, v, behind, rfl, hi, Except.ok.inj (h.symm.trans (popped_of_names hi))⟩
  · obtain ⟨f, hf⟩ := popped_of_out_of_range hrange
    cases hf.symm.trans h

/-- What a method makes of the elements is what its rule says. -/
lemma rule_of_change {m : ListMethod} {c : Change} (h : change s xs args m = .ok c) :
    Rule s xs m args c.answer c.elements := by
  cases m with
  | append =>
    unfold change at h
    dsimp only at h
    split at h
    · cases h
    · next hargs =>
      cases h
      exact .append (mt List.isEmpty_iff.mpr hargs)
  | extend =>
    obtain ⟨_, harity, -⟩ := exists_of_bind_eq_ok h
    obtain ⟨v, rfl⟩ := List.length_eq_one_iff.mp (Argument.length_of_exactly harity)
    cases v with
    | list q =>
      cases h
      exact .extend q
    | _ => cases h
  | insert =>
    obtain ⟨_, harity, -⟩ := exists_of_bind_eq_ok h
    obtain ⟨place, v, rfl⟩ := List.length_eq_two.mp (Argument.length_of_exactly harity)
    cases place with
    | int i =>
      cases h
      obtain ⟨before, behind, hxs, hk⟩ := exists_cut_of_clamp i.toInt xs
      exact insertIdx_of_cut hxs hk v ▸ .insert v hxs hk
    | _ => cases h
  | pop =>
    obtain ⟨_, harity, hpop⟩ := exists_of_bind_eq_ok h
    obtain ⟨i, hi, hpop⟩ := exists_of_bind_eq_ok hpop
    obtain ⟨before, v, behind, rfl, hnames, rfl⟩ := exists_pop_rule hpop
    have hlength := Nat.le_one_iff_eq_zero_or_eq_one.mp (Argument.length_of_between harity).2
    rcases hlength with hnone | hone
    · obtain rfl := List.length_eq_zero_iff.mp hnone
      cases hi
      obtain rfl := behind_last hnames
      exact (List.append_nil before).symm ▸ .popLast rfl
    · obtain ⟨w, rfl⟩ := List.length_eq_one_iff.mp hone
      cases w with
      | int i =>
        cases hi
        exact .pop rfl hnames
      | _ => cases hi
  | remove =>
    obtain ⟨v, hv, hremove⟩ := exists_of_bind_eq_ok h
    obtain rfl := Argument.eq_of_only hv
    unfold removed at hremove
    split at hremove
    · next k hk =>
      cases hremove
      obtain ⟨before, x, behind, rfl, rfl, hx, hbefore⟩ := exists_cut_of_findIdx? hk
      rw [eraseIdx_append_cons]
      exact .remove rfl hx hbefore
    · cases hremove
  | reverse =>
    obtain ⟨_, harity, -⟩ := exists_of_bind_eq_ok h
    obtain rfl := List.length_eq_zero_iff.mp (Argument.length_of_exactly harity)
    cases h
    exact .reverse

/-- **Where the rule does not apply, a method ends in a fault** and changes nothing. -/
lemma exists_rule_or_fault (m : ListMethod) (r : Ref .list) (args : List Value) (s : Store) :
    (∃ answer ys, Rule s (s.list r) m args answer ys) ∨ ∃ f, m.call r args s = .error f s := by
  cases h : change s (s.list r) args m with
  | error f => exact .inr ⟨f, call_of_fault h⟩
  | ok c => exact .inl ⟨_, _, rule_of_change h⟩

/-- What comes out is the element at the position, and only this element is gone. -/
lemma exists_of_pop {i : Int64} {s' : Store} (h : call .pop r [.int i] s = .ok v s') :
    ∃ before behind, s.list r = before ++ v :: behind ∧
      Names i.toInt (s.list r).length before.length ∧ s.OnlyList r (before ++ behind) s' := by
  rcases exists_rule_or_fault .pop r [.int i] s with ⟨answer, ys, hrule⟩ | ⟨f, hf⟩
  · obtain ⟨s'', hcall, hs''⟩ := hrule.call
    cases hcall.symm.trans h
    cases hrule with
    | @pop before behind v _ hxs hnames => exact ⟨before, behind, hxs, hnames, hs''⟩
  · cases hf.symm.trans h

end ListMethod

/-! ### Items -/

namespace Store

variable {s : Store} {r : Ref .list} {before behind : List Value} {x v : Value} {i : Int64}

lemma item_of_names (hxs : s.list r = before ++ x :: behind)
    (h : Names i.toInt (s.list r).length before.length) :
    s.item (.list r) (.int i) = .ok x := by
  have hindex : s.listIndex r (.int i) = .ok (some before.length) :=
    congrArg Except.ok (Position.index?_eq_some_iff.mpr h)
  have hget : (s.list r).getD before.length .null = x := by
    rw [hxs]
    simp
  show s.listItem r (.int i) = _
  unfold listItem
  rw [hindex]
  exact congrArg Except.ok hget

lemma setItem_of_names (hxs : s.list r = before ++ x :: behind)
    (h : Names i.toInt (s.list r).length before.length) (v : Value) :
    ∃ s', StoreM.setItem (.list r) (.int i) v s = .ok () s' ∧
      s.OnlyList r (before ++ v :: behind) s' := by
  have hindex : s.listIndex r (.int i) = .ok (some before.length) :=
    congrArg Except.ok (Position.index?_eq_some_iff.mpr h)
  have hset : (s.list r).set before.length v = before ++ v :: behind := by
    rw [hxs, ListMethod.set_append_cons]
  refine ⟨s.setList r (before ++ v :: behind), ?_, .setList ..⟩
  show StoreM.setListItem r (.int i) v s = _
  unfold StoreM.setListItem
  rw [hindex]
  dsimp only
  rw [hset]

/-- An index that names no element is refused. -/
lemma item_fault {index : Value}
    (h : ∀ i, index = .int i → ¬ (-((s.list r).length : Int) ≤ i.toInt ∧
      i.toInt < (s.list r).length)) :
    (∃ f, s.item (.list r) index = .error f) ∧
      ∀ v, ∃ f, StoreM.setItem (.list r) index v s = .error f s := by
  cases index with
  | int i =>
    have hindex : s.listIndex r (.int i) = .ok none :=
      congrArg Except.ok (Position.index?_eq_none_iff.mpr (h i rfl))
    refine ⟨⟨.listIndexRange, ?_⟩, fun v => ⟨.listAssignmentRange, ?_⟩⟩
    · show s.listItem r (.int i) = _
      unfold listItem
      rw [hindex]
      rfl
    · show StoreM.setListItem r (.int i) v s = _
      unfold StoreM.setListItem
      rw [hindex]
  | _ => exact ⟨⟨_, rfl⟩, fun v => ⟨_, rfl⟩⟩

lemma item_iff (s : Store) (r : Ref .list) (i : Int64) (v : Value) :
    s.item (.list r) (.int i) = .ok v ↔
      (-((s.list r).length : Int) ≤ i.toInt ∧ i.toInt < (s.list r).length) ∧
        (s.list r)[(i.toInt % (s.list r).length).toNat]? = some v := by
  by_cases hrange : -((s.list r).length : Int) ≤ i.toInt ∧ i.toInt < (s.list r).length
  · obtain ⟨before, x, behind, hxs, hi⟩ := ListMethod.exists_cut_of_range hrange
    have hget : (s.list r)[(i.toInt % (s.list r).length).toNat]? = some x := by
      rw [hi.toNat_emod, hxs, ListMethod.getElem?_append_cons]
    rw [item_of_names hxs hi, hget, Except.ok.injEq, Option.some_inj, and_iff_right hrange]
  · refine iff_of_false (fun h => ?_) fun h => hrange h.1
    obtain ⟨⟨f, hf⟩, -⟩ := @item_fault s r (.int i) fun j hj => by
      cases hj
      exact hrange
    cases hf.symm.trans h

end Store

/-! ### Lists as sequences -/

/-- **The list `r` behaves as a sequence of values**, and what is done to it changes nothing
else. -/
structure Store.ActsAsSequence (s : Store) (r : Ref .list) : Prop where
  /-- A method does what its rule says, and the list itself is all that changes. -/
  rule {m : ListMethod} {args : List Value} {answer : Option Value} {ys : List Value} :
    ListMethod.Rule s (s.list r) m args answer ys →
      ∃ s', m.call r args s = .ok (answer.getD (.list r)) s' ∧ s.OnlyList r ys s'
  /-- Where the rule does not apply it ends in a fault, and nothing changes. -/
  fault {m : ListMethod} {args : List Value} :
    (∀ answer ys, ¬ ListMethod.Rule s (s.list r) m args answer ys) →
      ∃ f, m.call r args s = .error f s
  /-- A list that is added to itself has its elements twice. -/
  extend_self : ∃ s', ListMethod.call .extend r [.list r] s = .ok (.list r) s' ∧
    s.OnlyList r (s.list r ++ s.list r) s'
  /-- A value can be put in at any position, which is clamped. It is then found there, and when it
  is taken out again all is as it was. -/
  insert_pop (i : Int64) (v : Value) : ∃ s₁,
    ListMethod.call .insert r [.int i, v] s = .ok (.list r) s₁ ∧
    (s₁.list r)[(Position.clamp i.toInt (s.list r).length).toNat]? = some v ∧
    ∀ j : Int64, j.toInt = Position.clamp i.toInt (s.list r).length →
      ∃ s₂, ListMethod.call .pop r [.int j] s₁ = .ok v s₂ ∧ s.OnlyList r (s.list r) s₂
  /-- An element can be taken out exactly at the positions in range. -/
  pop_iff (i : Int64) : (∃ v s', ListMethod.call .pop r [.int i] s = .ok v s') ↔
    -((s.list r).length : Int) ≤ i.toInt ∧ i.toInt < (s.list r).length
  /-- It is the one at the position modulo the length. -/
  pop (i : Int64) (v : Value) (s' : Store) : ListMethod.call .pop r [.int i] s = .ok v s' →
    (s.list r)[(i.toInt % (s.list r).length).toNat]? = some v ∧
      s.OnlyList r ((s.list r).eraseIdx (i.toInt % (s.list r).length).toNat) s'
  /-- So it is with reading an element. -/
  item_iff (i : Int64) (v : Value) : s.item (.list r) (.int i) = .ok v ↔
    (-((s.list r).length : Int) ≤ i.toInt ∧ i.toInt < (s.list r).length) ∧
      (s.list r)[(i.toInt % (s.list r).length).toNat]? = some v
  /-- And with writing one. -/
  setItem (i : Int64) (v : Value) :
    -((s.list r).length : Int) ≤ i.toInt → i.toInt < (s.list r).length →
      ∃ s', StoreM.setItem (.list r) (.int i) v s = .ok () s' ∧
        s.OnlyList r ((s.list r).set (i.toInt % (s.list r).length).toNat v) s'
  /-- Any other index is a fault, and nothing changes. -/
  item_fault {index : Value} :
    (∀ i, index = .int i →
      ¬ (-((s.list r).length : Int) ≤ i.toInt ∧ i.toInt < (s.list r).length)) →
      (∃ f, s.item (.list r) index = .error f) ∧
        ∀ v, ∃ f, StoreM.setItem (.list r) index v s = .error f s
  /-- Removing a value fails exactly if no element equals it. -/
  remove_fault_iff (v : Value) : (∃ f, ListMethod.call .remove r [v] s = .error f s) ↔
    ∀ x ∈ s.list r, s.equal x v = false
  /-- Reversing turns positions around, and once more puts them back. -/
  reverse : ∃ s₁, ListMethod.call .reverse r [] s = .ok (.list r) s₁ ∧
    (s₁.list r).length = (s.list r).length ∧
    (∀ k < (s.list r).length, (s₁.list r)[k]? = (s.list r)[(s.list r).length - 1 - k]?) ∧
    ∃ s₂, ListMethod.call .reverse r [] s₁ = .ok (.list r) s₂ ∧ s.OnlyList r (s.list r) s₂

namespace ListMethod

lemma insert_pop (s : Store) (r : Ref .list) (i : Int64) (v : Value) : ∃ s₁,
    call .insert r [.int i, v] s = .ok (.list r) s₁ ∧
    (s₁.list r)[(Position.clamp i.toInt (s.list r).length).toNat]? = some v ∧
    ∀ j : Int64, j.toInt = Position.clamp i.toInt (s.list r).length →
      ∃ s₂, call .pop r [.int j] s₁ = .ok v s₂ ∧ s.OnlyList r (s.list r) s₂ := by
  obtain ⟨before, behind, hxs, hk⟩ := exists_cut_of_clamp i.toInt (s.list r)
  obtain ⟨s₁, hcall, hs₁⟩ := (Rule.insert v hxs hk : Rule s _ _ _ _ _).call
  refine ⟨s₁, hcall, ?_, fun j hj => ?_⟩
  · rw [← hk, Int.toNat_natCast, hs₁.elements, getElem?_append_cons]
  · have hnames : Names j.toInt (s₁.list r).length before.length := by
      rw [hj, ← hk, hs₁.elements]
      exact Position.names_self (by simp)
    obtain ⟨s₂, hpop, hs₂⟩ := (Rule.pop hs₁.elements hnames : Rule s₁ _ _ _ _ _).call
    exact ⟨s₂, hpop, hs₁.trans (hxs ▸ hs₂)⟩

lemma pop_iff (s : Store) (r : Ref .list) (i : Int64) :
    (∃ v s', call .pop r [.int i] s = .ok v s') ↔
      -((s.list r).length : Int) ≤ i.toInt ∧ i.toInt < (s.list r).length := by
  constructor
  · rintro ⟨v, s', h⟩
    obtain ⟨_, _, _, hnames, _⟩ := exists_of_pop h
    exact ⟨hnames.lower, hnames.upper⟩
  · intro hrange
    obtain ⟨before, v, behind, hxs, hi⟩ := exists_cut_of_range hrange
    obtain ⟨s', hcall, _⟩ := (Rule.pop hxs hi : Rule s _ _ _ _ _).call
    exact ⟨v, s', hcall⟩

lemma remove_fault_iff (s : Store) (r : Ref .list) (v : Value) :
    (∃ f, call .remove r [v] s = .error f s) ↔ ∀ x ∈ s.list r, s.equal x v = false := by
  constructor
  · rintro ⟨f, hf⟩
    by_contra hsome
    obtain ⟨k, hk⟩ : ∃ k, (s.list r).findIdx? (s.equal · v) = some k :=
      Option.ne_none_iff_exists'.mp fun hnone => hsome (List.findIdx?_eq_none_iff.mp hnone)
    obtain ⟨before, x, behind, hxs, -, hx, hbefore⟩ := exists_cut_of_findIdx? hk
    obtain ⟨s', hcall, _⟩ := (Rule.remove hxs hx hbefore : Rule s _ _ _ _ _).call
    cases hf.symm.trans hcall
  · intro hnone
    rcases exists_rule_or_fault .remove r [v] s with ⟨answer, ys, hrule⟩ | hf
    · cases hrule with
      | @remove before behind x _ hxs hx _ =>
        have hmem : x ∈ s.list r := hxs ▸ List.mem_append_right before List.mem_cons_self
        cases hx.symm.trans (hnone x hmem)
    · exact hf

lemma reverse_reverse (s : Store) (r : Ref .list) :
    ∃ s₁, call .reverse r [] s = .ok (.list r) s₁ ∧
      (s₁.list r).length = (s.list r).length ∧
      (∀ k < (s.list r).length, (s₁.list r)[k]? = (s.list r)[(s.list r).length - 1 - k]?) ∧
      ∃ s₂, call .reverse r [] s₁ = .ok (.list r) s₂ ∧ s.OnlyList r (s.list r) s₂ := by
  obtain ⟨s₁, hcall, hs₁⟩ := (Rule.reverse : Rule s (s.list r) _ _ _ _).call
  obtain ⟨s₂, hcall', hs₂⟩ := (Rule.reverse : Rule s₁ (s₁.list r) _ _ _ _).call
  rw [hs₁.elements, List.reverse_reverse] at hs₂
  refine ⟨s₁, hcall, ?_, fun k hk => ?_, s₂, hcall', hs₁.trans hs₂⟩
  · rw [hs₁.elements, List.length_reverse]
  · rw [hs₁.elements, List.getElem?_reverse hk]

end ListMethod

/-- **Lists are sequences**, whatever the store holds and whatever is passed to their methods. -/
theorem Store.lists_act_as_sequences (s : Store) (r : Ref .list) : s.ActsAsSequence r where
  rule h := h.call
  fault {m args} h := by
    rcases ListMethod.exists_rule_or_fault m r args s with ⟨answer, ys, hrule⟩ | hf
    · exact absurd hrule (h answer ys)
    · exact hf
  extend_self := (ListMethod.Rule.extend r : ListMethod.Rule s (s.list r) _ _ _ _).call
  insert_pop := ListMethod.insert_pop s r
  pop_iff := ListMethod.pop_iff s r
  pop i v s' h := by
    obtain ⟨before, behind, hxs, hnames, hs'⟩ := ListMethod.exists_of_pop h
    rw [hnames.toNat_emod, hxs, ListMethod.getElem?_append_cons, ListMethod.eraseIdx_append_cons]
    exact ⟨rfl, hs'⟩
  item_iff := Store.item_iff s r
  setItem i v hlower hupper := by
    obtain ⟨before, x, behind, hxs, hi⟩ := ListMethod.exists_cut_of_range ⟨hlower, hupper⟩
    obtain ⟨s', hset, hs'⟩ := Store.setItem_of_names hxs hi v
    refine ⟨s', hset, ?_⟩
    rw [hi.toNat_emod, hxs, ListMethod.set_append_cons]
    exact hs'
  item_fault h := Store.item_fault h
  remove_fault_iff := ListMethod.remove_fault_iff s r
  reverse := ListMethod.reverse_reverse s r

end Wei
