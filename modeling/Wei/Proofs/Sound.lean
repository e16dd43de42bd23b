import Wei.Builtin
import Wei.Instance
import Wei.Item
import Wei.Iteration
import Wei.Proofs.Cell
import Wei.Proofs.Conformity

/-!
Sound stores: no cell holds anything dangling, and the code of every function is admitted. Whatever
is looked up in a sound store by way of something live is live itself.
-/

namespace Wei

/-- The statements that a cell holds. -/
def Cell.code : {k : Kind} → Cell k → List Stmt
  | .function, x => x.body
  | _, _ => []

variable [A : Alphabet]

/-- The content of a cell is sound: nothing in it is dangling, and its code is admitted. -/
structure Cell.Sound (strict : Bool) (n : Census) {k : Kind} (x : Cell k) : Prop where
  values : ∀ v ∈ Cell.values x, v.Live n
  links : ∀ l ∈ Cell.links x, l.2.Live n
  code : Admits strict (Stmt.allConform (Cell.code x))

/-- Every cell is sound, and the class `object` is there. -/
structure Store.Sound (strict : Bool) (s : Store) : Prop where
  object : Store.object.Live s.census
  cell {k : Kind} (r : Ref k) : r.Live s.census → Cell.Sound strict s.census (s.read r)

/-- What a name of a class stands for is not dangling. -/
def ClassSlot.Live (n : Census) : ClassSlot → Prop
  | .member b => b.value.Live n
  | .method f => f.Live n

/-- What is left of a walk brings nothing dangling. -/
def Iteration.Live (n : Census) : Iteration → Prop
  | .fixed rest => ∀ e ∈ rest, e.1.Live n ∧ e.2.Live n
  | .live r _ => r.Live n

variable {strict : Bool} {n n' : Census}

lemma Iteration.Live.mono {walk : Iteration} (h : walk.Live n) (hn : n ≤ n') : walk.Live n' := by
  cases walk with
  | fixed rest => exact fun e he => ⟨(h e he).1.mono hn, (h e he).2.mono hn⟩
  | live r next => exact Ref.Live.mono h hn

/-- An element of a list, or else null. -/
lemma Value.live_getD {vs : List Value} (h : ∀ v ∈ vs, v.Live n) (i : Nat) :
    (vs.getD i .null).Live n := by
  rw [List.getD_eq_getElem?_getD]
  cases hi : vs[i]? with
  | none => trivial
  | some v => exact h v (List.mem_of_getElem? hi)

omit A in
/-- What two operations one after the other answer comes from what the first answered. -/
lemma exists_of_bind_eq_ok {ε α β : Type} {x : Except ε α} {f : α → Except ε β} {b : β}
    (h : x >>= f = .ok b) : ∃ a, x = .ok a ∧ f a = .ok b := by
  cases x with
  | error e => cases h
  | ok a => exact ⟨a, rfl, h⟩

lemma Cell.Sound.mono {k : Kind} {x : Cell k} (h : Cell.Sound strict n x) (hn : n ≤ n') :
    Cell.Sound strict n' x :=
  ⟨fun v hv => (h.values v hv).mono hn, fun l hl => (h.links l hl).mono hn, h.code⟩

namespace Store.Sound

variable {s : Store}

/-! ### Changes -/

/-- Replacing the content of a cell by something sound. -/
lemma write (hs : s.Sound strict) {k : Kind} {r : Ref k} {x : Cell k} (hr : r.Live s.census)
    (hx : Cell.Sound strict s.census x) : (s.write r x).Sound strict := by
  have hn : (s.write r x).census = s.census := s.census_write hr x
  refine ⟨hn ▸ hs.object, fun q hq => ?_⟩
  rw [hn] at hq ⊢
  exact s.read_write_induction (P := fun _ y => Cell.Sound strict s.census y) hx (hs.cell q hq)

/-- Making a cell with something sound in it. -/
lemma add (hs : s.Sound strict) {k : Kind} {x : Cell k} (hx : Cell.Sound strict s.census x) :
    (s.add x).Sound strict := by
  have hn : s.census ≤ (s.add x).census := s.census_le_add x
  refine ⟨hs.object.mono hn, fun q hq => ?_⟩
  exact s.read_add_induction (P := fun _ y => Cell.Sound strict (s.add x).census y) (hx.mono hn) hq
    fun hq => (hs.cell q hq).mono hn

/-! ### What cells hold -/

variable (hs : s.Sound strict)
include hs

lemma binding_live {r : Ref .scope} (hr : r.Live s.census) {b : Binding}
    (hb : b ∈ (s.scope r).bindings.values) : b.value.Live s.census :=
  (hs.cell r hr).values _ (List.mem_map_of_mem hb)

lemma outer_live {r q : Ref .scope} (hr : r.Live s.census) (hq : (s.scope r).outer = some q) :
    q.Live s.census :=
  (hs.cell r hr).links ⟨.scope, q⟩ (List.mem_map_of_mem (Option.mem_toList.mpr hq))

lemma element_live {r : Ref .list} (hr : r.Live s.census) {v : Value} (hv : v ∈ s.list r) :
    v.Live s.census :=
  (hs.cell r hr).values v hv

lemma entry_live {r : Ref .dict} (hr : r.Live s.census) {e : Value × Value}
    (he : e ∈ (s.dict r).values) : e.1.Live s.census ∧ e.2.Live s.census := by
  have h := (hs.cell r hr).values
  exact ⟨h e.1 (List.mem_flatMap.mpr ⟨e, he, by simp⟩),
    h e.2 (List.mem_flatMap.mpr ⟨e, he, by simp⟩)⟩

lemma closure_live {f : Ref .function} (hf : f.Live s.census) :
    (s.function f).scope.Live s.census :=
  (hs.cell f hf).links ⟨.scope, (s.function f).scope⟩ List.mem_cons_self

lemma owner_live {f : Ref .function} (hf : f.Live s.census) {c : Ref .cls}
    (hc : (s.function f).owner = some c) : c.Live s.census :=
  (hs.cell f hf).links ⟨.cls, c⟩
    (List.mem_cons_of_mem _ (List.mem_map_of_mem (Option.mem_toList.mpr hc)))

lemma body_admitted {f : Ref .function} (hf : f.Live s.census) :
    Admits strict (Stmt.allConform (s.function f).body) :=
  (hs.cell f hf).code

lemma parent_live {c d : Ref .cls} (hc : c.Live s.census) (hd : (s.cls c).parent = some d) :
    d.Live s.census :=
  (hs.cell c hc).links ⟨.cls, d⟩
    (List.mem_append_left _ (List.mem_map_of_mem (Option.mem_toList.mpr hd)))

lemma default_live {c : Ref .cls} (hc : c.Live s.census) {d : Member} {v : Value}
    (hd : d ∈ (s.cls c).members.values) (hv : d.default = some v) : v.Live s.census :=
  (hs.cell c hc).values v (List.mem_append_left _ (List.mem_filterMap.mpr ⟨d, hd, hv⟩))

lemma classMember_live {c : Ref .cls} (hc : c.Live s.census) {b : Binding}
    (hb : b ∈ (s.cls c).classMembers.values) : b.value.Live s.census :=
  (hs.cell c hc).values _ (List.mem_append_right _ (List.mem_map_of_mem hb))

lemma method_live {c : Ref .cls} (hc : c.Live s.census) {f : Ref .function}
    (hf : f ∈ (s.cls c).methods.values ++ (s.cls c).classMethods.values) : f.Live s.census :=
  (hs.cell c hc).links ⟨.function, f⟩ (List.mem_append_right _ (List.mem_map_of_mem hf))

lemma class_live {r : Ref .inst} (hr : r.Live s.census) : (s.inst r).cls.Live s.census :=
  (hs.cell r hr).links ⟨.cls, (s.inst r).cls⟩ List.mem_cons_self

lemma member_live {r : Ref .inst} (hr : r.Live s.census) {v : Value}
    (hv : some v ∈ (s.inst r).members.values) : v.Live s.census :=
  (hs.cell r hr).values v (List.mem_filterMap.mpr ⟨some v, hv, rfl⟩)

lemma bound_sound {r : Ref .bound} (hr : r.Live s.census) {b : Bound} (hb : s.bound r = b) :
    Cell.Sound strict s.census (k := .bound) b :=
  hb ▸ hs.cell r hr

lemma moduleScope_live {r : Ref .module} (hr : r.Live s.census) :
    (s.module r).scope.Live s.census :=
  (hs.cell r hr).links ⟨.scope, (s.module r).scope⟩ List.mem_cons_self

/-! ### Look-ups along chains -/

lemma chain_live {r : Ref .scope} (hr : r.Live s.census) :
    ∀ q ∈ s.chain r, q.Live s.census :=
  forall_mem_chain (fun _ _ h hq => hs.outer_live hq h) hr

lemma lookup?_live {r : Ref .scope} (hr : r.Live s.census) {x : String} {v : Value}
    (h : s.lookup? r x = some v) : v.Live s.census := by
  obtain ⟨q, hq, hv⟩ := List.exists_of_findSome?_eq_some h
  obtain ⟨b, hb, rfl⟩ := Option.map_eq_some_iff.mp hv
  exact hs.binding_live (hs.chain_live hr q hq) (OrderedMap.mem_values_of_find? hb)

lemma lineage_live {c : Ref .cls} (hc : c.Live s.census) :
    ∀ d ∈ s.lineage c, d.Live s.census :=
  forall_mem_lineage (fun _ _ h hd => hs.parent_live hd h) hc

lemma findMethod?_live {c : Ref .cls} (hc : c.Live s.census) {x : String} {f : Ref .function}
    (h : s.findMethod? c x = some f) : f.Live s.census := by
  obtain ⟨d, hd, hf⟩ := List.exists_of_findSome?_eq_some h
  exact hs.method_live (hs.lineage_live hc d hd)
    (List.mem_append_left _ (OrderedMap.mem_values_of_find? hf))

lemma slot?_live {c : Ref .cls} (hc : c.Live s.census) {x : String} {slot : ClassSlot}
    (h : (s.cls c).slot? x = some slot) : slot.Live s.census := by
  unfold Class.slot? at h
  split at h
  · next b hb =>
    obtain ⟨⟩ := h
    exact hs.classMember_live hc (OrderedMap.mem_values_of_find? hb)
  · obtain ⟨f, hf, rfl⟩ := Option.map_eq_some_iff.mp h
    exact hs.method_live hc (List.mem_append_right _ (OrderedMap.mem_values_of_find? hf))

lemma findSlot?_live {c : Ref .cls} (hc : c.Live s.census) {x : String} {slot : ClassSlot}
    (h : s.findSlot? c x = some slot) : slot.Live s.census := by
  obtain ⟨d, hd, hslot⟩ := List.exists_of_findSome?_eq_some h
  exact hs.slot?_live (hs.lineage_live hc d hd) hslot

lemma findSuper?_live {owner : Ref .cls} (ho : owner.Live s.census) {receiver : Receiver}
    {x : String} {found : Ref .function ⊕ ClassSlot}
    (h : s.findSuper? owner receiver x = some found) :
    found.elim (·.Live s.census) (·.Live s.census) := by
  unfold findSuper? at h
  split at h
  · cases h
  · next parent hparent =>
    obtain ⟨d, hd, hfound⟩ := List.exists_of_findSome?_eq_some h
    have hdl := hs.lineage_live (hs.parent_live ho hparent) d hd
    have inherited : (((s.cls d).slot? x).map Sum.inr = some found) →
        found.elim (·.Live s.census) (·.Live s.census) := by
      intro h
      obtain ⟨slot, hslot, rfl⟩ := Option.map_eq_some_iff.mp h
      exact hs.slot?_live hdl hslot
    unfold Class.superSlot? at hfound
    split at hfound
    · split at hfound
      · next f hf =>
        obtain ⟨⟩ := hfound
        exact hs.method_live hdl (List.mem_append_left _ (OrderedMap.mem_values_of_find? hf))
      · exact inherited hfound
    · exact inherited hfound

/-- The members with which an instance starts. -/
lemma flattenedMembers_live {c : Ref .cls} (hc : c.Live s.census) :
    ∀ v, some v ∈ (s.flattenedMembers c).values → v.Live s.census := by
  let Fine (acc : OrderedMap String (Option Value)) : Prop :=
    ∀ v, some v ∈ acc.values → v.Live s.census
  refine List.foldlRecOn (motive := Fine) _ _ (fun v hv => nomatch hv) fun acc hacc d hd => ?_
  refine List.foldlRecOn (motive := Fine) _ _ hacc fun acc hacc e he v hv => ?_
  rcases OrderedMap.mem_values_insert hv with h | h
  · exact hs.default_live (hs.lineage_live hc d (List.mem_reverse.mp hd)) (List.mem_map_of_mem he)
      h.symm
  · exact hacc v h

/-! ### Printing -/

omit hs in
/-- The texts of names are written in characters. -/
lemma renderPlain_over {v : Value} (hv : v.Live s.census) : (s.renderPlain v).Over := by
  cases v with
  | str t => exact hv
  | bool b => cases b <;> exact .ofString _
  | error f => exact hv.elim
  | returned v => exact hv.elim
  | breaking => exact hv.elim
  | continuing => exact hv.elim
  | _ => exact .ofString _

lemma renderWithin_over (depth : Nat) (active : List Value) {v : Value} (hv : v.Live s.census) :
    (s.renderWithin depth active v).Over := by
  induction depth generalizing active v with
  | zero => exact renderPlain_over hv
  | succ depth ih =>
    cases v with
    | list r =>
      rw [renderWithin_list]
      split
      · exact renderPlain_over hv
      · refine .append (.append (.ofString _) (.intercalate (.ofString _) fun t ht => ?_))
          (.ofString _)
        obtain ⟨w, hw, rfl⟩ := List.mem_map.mp ht
        exact ih _ (hs.element_live hv hw)
    | dict r =>
      rw [renderWithin_dict]
      split
      · exact renderPlain_over hv
      · refine .append (.append (.ofString _) (.intercalate (.ofString _) fun t ht => ?_))
          (.ofString _)
        obtain ⟨texts, htexts, rfl⟩ := List.mem_map.mp ht
        obtain ⟨e, he, rfl⟩ := List.mem_map.mp htexts
        obtain ⟨hkey, hvalue⟩ := hs.entry_live hv he
        exact .append (.append (ih _ hkey) (.ofString _)) (ih _ hvalue)
    | returned v => exact hv.elim
    | _ => exact renderPlain_over hv

/-- **What a value prints as is over the alphabet.** -/
lemma render_over {v : Value} (hv : v.Live s.census) : (s.render v).Over :=
  hs.renderWithin_over _ [] hv

/-! ### Items and walks -/

lemma item_live {v i w : Value} (hv : v.Live s.census) (h : s.item v i = .ok w) :
    w.Live s.census := by
  unfold item at h
  split at h
  · next t =>
    unfold textItem at h
    split at h
    · split at h
      · next k _ =>
        obtain ⟨⟩ := h
        have hp : A.has (t.getD k (.char ' ')) = true := by
          rw [List.getD_eq_getElem?_getD]
          cases hk : t[k]? with
          | none => exact A.char ' '
          | some p => exact hv p (List.mem_of_getElem? hk)
        exact .cons hp .nil
      · cases h
    · cases h
  · next r =>
    obtain ⟨place, -, h⟩ := exists_of_bind_eq_ok h
    split at h
    · obtain ⟨⟩ := h
      exact Value.live_getD (fun w hw => hs.element_live hv hw) _
    · cases h
  · next r =>
    unfold dictItem at h
    split at h
    · cases h
    · split at h
      · next e he =>
        obtain ⟨⟩ := h
        exact (hs.entry_live hv (OrderedMap.mem_values_of_find? he)).2
      · cases h
  · cases h

lemma iteration?_live {v : Value} (hv : v.Live s.census) {walk : Iteration}
    (h : s.iteration? v = some walk) : walk.Live s.census := by
  cases v with
  | str t =>
    obtain ⟨⟩ := h
    intro e he
    obtain ⟨c, hc, rfl⟩ := List.mem_map.mp he
    exact ⟨trivial, .cons (hv c.1 (List.fst_mem_of_mem_zipIdx hc)) .nil⟩
  | list r =>
    obtain ⟨⟩ := h
    exact hv
  | dict r =>
    obtain ⟨⟩ := h
    exact fun e he => hs.entry_live hv he
  | _ => cases h

lemma next?_live {walk rest : Iteration} (hw : walk.Live s.census) {step : Value × Value}
    (h : walk.next? s = some (step, rest)) :
    (step.1.Live s.census ∧ step.2.Live s.census) ∧ rest.Live s.census := by
  unfold Iteration.next? at h
  split at h
  · cases h
  · obtain ⟨⟩ := h
    exact ⟨hw _ List.mem_cons_self, fun e he => hw e (List.mem_cons_of_mem _ he)⟩
  · split at h
    · next v hv =>
      obtain ⟨⟩ := h
      exact ⟨⟨trivial, hs.element_live hw (List.mem_of_getElem? hv)⟩, hw⟩
    · cases h

end Store.Sound

end Wei
