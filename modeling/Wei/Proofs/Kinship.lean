import Wei.Proofs.Reachable

/-!
Methods are called on receivers of their kin only. A function that stands in a table of a class is
owned by that class, and whatever it is bound to descends from its owner: a receiver comes to a
method by way of its own line, or through `super`, which starts above the owner of the method that
is running.

Classes are defined while scripts run, and methods may be found while the body of an ancestor is not
at its end yet. What makes the law hold at all times is that a parent is older than its children,
and that neither the parent of a class nor the class of an instance nor the owner of a function ever
changes.
-/

namespace Wei

/-! ### Lines of classes -/

namespace Store

variable {s : Store}

/-- The classes strictly above a class, the nearest first. -/
def above (s : Store) (c : Ref .cls) : List (Ref .cls) := (s.lineage c).tail

/-- Parents are older than their children. -/
def ParentsFirst (s : Store) : Prop :=
  ∀ c parent, (s.cls c).parent = some parent → parent.index < c.index

lemma above_of_parent_eq_none {c : Ref .cls} (h : (s.cls c).parent = none) : s.above c = [] := by
  rw [above, lineage, h, List.tail_cons]

/-- What is above a class is the line of its parent. -/
lemma ParentsFirst.above_eq (hs : s.ParentsFirst) {c parent : Ref .cls}
    (h : (s.cls c).parent = some parent) : s.above c = s.lineage parent := by
  rw [above, lineage, h, List.tail_cons]
  exact if_pos (hs c parent h)

/-- The line of an ancestor is the end of one's own. -/
lemma lineage_suffix {c d : Ref .cls} (h : d ∈ s.lineage c) : s.lineage d <:+ s.lineage c := by
  fun_induction s.lineage c with
  | case1 c ih =>
    rcases List.mem_cons.mp h with rfl | h
    · exact ⟨[], by rw [lineage, List.nil_append]⟩
    · split at h
      · cases h
      · next parent hparent =>
        split at h
        · next hlt =>
          rw [if_pos hlt]
          exact (ih parent hlt h).trans (List.suffix_cons ..)
        · cases h

lemma mem_lineage_trans {c d e : Ref .cls} (hd : d ∈ s.lineage c) (he : e ∈ s.lineage d) :
    e ∈ s.lineage c :=
  (lineage_suffix hd).subset he

lemma mem_lineage_of_mem_above {c d : Ref .cls} (h : d ∈ s.above c) : d ∈ s.lineage c :=
  List.mem_of_mem_tail h

lemma index_le_of_mem_lineage {c d : Ref .cls} (h : d ∈ s.lineage c) : d.index ≤ c.index := by
  fun_induction s.lineage c with
  | case1 c ih =>
    rcases List.mem_cons.mp h with rfl | h
    · exact Nat.le_refl _
    · split at h
      · cases h
      · next parent hparent =>
        split at h
        · next hlt =>
          have hle := ih parent hlt h
          omega
        · cases h

/-- **Whoever is above is older.** -/
lemma index_lt_of_mem_above {c d : Ref .cls} (h : d ∈ s.above c) : d.index < c.index := by
  rw [above, lineage, List.tail_cons] at h
  split at h
  · cases h
  · next parent hparent =>
    split at h
    · next hlt =>
      have hle := index_le_of_mem_lineage h
      omega
    · cases h

/-- `super` looks among the classes strictly above the owner. -/
lemma ParentsFirst.findSuper?_eq (hs : s.ParentsFirst) (owner : Ref .cls) (receiver : Receiver)
    (x : String) : s.findSuper? owner receiver x =
      (s.above owner).findSome? fun c => (s.cls c).superSlot? receiver x := by
  unfold findSuper?
  cases h : (s.cls owner).parent with
  | none => rw [above_of_parent_eq_none h, List.findSome?_nil]
  | some parent => rw [hs.above_eq h]

end Store

/-! ### What a class has under a name -/

/-- What is found after an entry has been written was there before, or it is that entry. -/
lemma OrderedMap.find?_insert_cases {κ ν : Type} [DecidableEq κ] {m : OrderedMap κ ν} {k j : κ}
    {v w : ν} (h : (m.insert k v).find? j = some w) : m.find? j = some w ∨ k = j ∧ v = w := by
  rw [find?_insert] at h
  split at h
  · next e => exact .inr ⟨e, Option.some.inj h⟩
  · exact .inl h

namespace Class

variable {c : Class} {receiver : Receiver} {x : String} {f : Ref .function}

/-- The class has the function under the name, as a method of its instances or as one of its own. -/
def HasMethod (c : Class) (x : String) (f : Ref .function) : Prop :=
  c.methods.find? x = some f ∨ c.classMethods.find? x = some f

lemma classMethods_of_slot? (h : c.slot? x = some (.method f)) :
    c.classMethods.find? x = some f := by
  unfold slot? at h
  split at h
  · cases h
  · obtain ⟨g, hg, e⟩ := Option.map_eq_some_iff.mp h
    obtain ⟨⟩ := e
    exact hg

/-- A method of instances shows to instances only. -/
lemma exists_of_superSlot?_eq_inl (h : c.superSlot? receiver x = some (.inl f)) :
    (∃ this, receiver = .inst this) ∧ c.methods.find? x = some f := by
  cases receiver with
  | cls r =>
    obtain ⟨slot, _, e⟩ := Option.map_eq_some_iff.mp h
    cases e
  | inst this =>
    unfold superSlot? at h
    dsimp only at h
    split at h
    · next g hg =>
      obtain ⟨⟩ := h
      exact ⟨⟨this, rfl⟩, hg⟩
    · obtain ⟨slot, _, e⟩ := Option.map_eq_some_iff.mp h
      cases e

lemma slot?_of_superSlot?_eq_inr {slot : ClassSlot}
    (h : c.superSlot? receiver x = some (.inr slot)) : c.slot? x = some slot := by
  have inherited (h : (c.slot? x).map Sum.inr = some (.inr slot : Ref .function ⊕ ClassSlot)) :
      c.slot? x = some slot := by
    obtain ⟨slot', hslot, e⟩ := Option.map_eq_some_iff.mp h
    obtain ⟨⟩ := e
    exact hslot
  cases receiver with
  | cls r => exact inherited h
  | inst this =>
    unfold superSlot? at h
    dsimp only at h
    split at h
    · cases h
    · exact inherited h

end Class

/-! ### Kin -/

namespace Store

variable {strict : Bool} {s s' : Store} {receiver : Receiver} {f : Ref .function}

/-- The function is owned by a class of the line of `c`. -/
def Related (s : Store) (c : Ref .cls) (f : Ref .function) : Prop :=
  ∃ owner ∈ s.lineage c, (s.function f).owner = some owner

/-- **A receiver descends from the class that owns what is bound to it.** -/
def Kin (s : Store) : Bound → Prop
  | .method this f => s.Related (s.inst this).cls f
  | .classMethod c f => s.Related c f
  | .super owner receiver => owner ∈ s.lineage (s.receiverClass receiver)
  | .text _ _ => True
  | .list _ _ => True

/-- The function belongs to the class, and the name is its own. -/
structure Owns (s : Store) (c : Ref .cls) (x : String) (f : Ref .function) : Prop where
  live : f.Live s.census
  owner : (s.function f).owner = some c
  name : (s.function f).name.getD "" = x

/-- **All are kin**: every function in a table of a class is owned by this class and stands there
under its own name, and whatever has been bound to a receiver is owned by a class of its line. -/
structure Kindred (s : Store) : Prop where
  parents : s.ParentsFirst
  tables : ∀ c x f, (s.cls c).HasMethod x f → s.Owns c x f
  bound : ∀ b, b.Live s.census → s.Kin (s.bound b)

/-! #### What is found is kin -/

namespace Kindred

variable (hk : s.Kindred)
include hk

/-- What is found along a line is owned by a class of the line. -/
lemma related_of_mem {c d : Ref .cls} {x : String} (hd : d ∈ s.lineage c)
    (hf : (s.cls d).HasMethod x f) : s.Related c f :=
  ⟨d, hd, (hk.tables d x f hf).owner⟩

/-- What `super` finds is owned by the class in which it is found, which is above. -/
lemma exists_of_findSuper? {owner : Ref .cls} {x : String} {found : Ref .function ⊕ ClassSlot}
    (h : s.findSuper? owner receiver x = some found) :
    ∃ d ∈ s.above owner, (s.cls d).superSlot? receiver x = some found := by
  rw [hk.parents.findSuper?_eq] at h
  exact List.exists_of_findSome?_eq_some h

lemma related_of_super {b : Ref .bound} (hb : b.Live s.census) {owner d : Ref .cls} {x : String}
    (hsuper : s.bound b = .super owner receiver) (hd : d ∈ s.above owner)
    (hf : (s.cls d).HasMethod x f) : s.Related (s.receiverClass receiver) f := by
  have hkin := hk.bound b hb
  rw [hsuper] at hkin
  exact hk.related_of_mem (mem_lineage_trans hkin (mem_lineage_of_mem_above hd)) hf

/-- **A function is called on receivers only that descend from its owner**, on whichever way it has
been found. -/
lemma related_of_calls (h : s.Calls receiver f) : s.Related (s.receiverClass receiver) f := by
  cases h with
  | method h =>
    obtain ⟨d, hd, hf⟩ := List.exists_of_findSome?_eq_some h
    exact hk.related_of_mem hd (.inl hf)
  | classMethod h =>
    obtain ⟨d, hd, hf⟩ := List.exists_of_findSome?_eq_some h
    exact hk.related_of_mem hd (.inr (Class.classMethods_of_slot? hf))
  | superMethod hb hsuper h =>
    obtain ⟨d, hd, hf⟩ := hk.exists_of_findSuper? h
    exact hk.related_of_super hb hsuper hd (.inl (Class.exists_of_superSlot?_eq_inl hf).2)
  | superClassMethod hb hsuper h =>
    obtain ⟨d, hd, hf⟩ := hk.exists_of_findSuper? h
    have hslot := Class.classMethods_of_slot? (Class.slot?_of_superSlot?_eq_inr hf)
    have hrelated := hk.related_of_super hb hsuper hd (.inr hslot)
    exact hrelated
  | boundMethod hb h =>
    have hkin := hk.bound _ hb
    rw [h] at hkin
    exact hkin
  | boundClassMethod hb h =>
    have hkin := hk.bound _ hb
    rw [h] at hkin
    exact hkin

lemma kin_of_binds {b : Bound} (h : s.Binds b) : s.Kin b := by
  cases h with
  | text m t => trivial
  | list m r => trivial
  | method h => exact hk.related_of_calls h
  | classMethod h => exact hk.related_of_calls h
  | super h howner =>
    obtain ⟨owner, hmem, howner'⟩ := hk.related_of_calls h
    obtain rfl := Option.some.inj (howner.symm.trans howner')
    exact hmem

end Kindred

/-! #### What lasts -/

/-- Neither functions nor the classes of instances nor the parents of classes change. -/
structure Lasts (s s' : Store) : Prop where
  function : ∀ f, f.Live s.census → s'.function f = s.function f
  instance_cls : ∀ r, r.Live s.census → (s'.inst r).cls = (s.inst r).cls
  parent : ∀ c, c.Live s.census → (s'.cls c).parent = (s.cls c).parent

/-- A class keeps its parent. Only a new class gets one. -/
lemma Edit.parent_cases (h : Edit strict s s') (c : Ref .cls) :
    (s'.cls c).parent = (s.cls c).parent ∨
      c.index = s.classes.size ∧ ∃ parent : Ref .cls, parent.Live s.census ∧
        (s'.cls c).parent = some parent := by
  cases h with
  | @newClass x parent hlive =>
    show ((s.classes.push (Class.blank x (some parent))).get c.index).parent = _ ∨ _ ∧ _
    by_cases hc : c.index = s.classes.size
    · refine .inr ⟨hc, parent, hlive, ?_⟩
      show ((s.classes.push (Class.blank x (some parent))).get c.index).parent = _
      rw [hc, Arena.get_push_size]
      rfl
    · rw [Arena.get_push_of_ne _ _ hc]
      exact .inl rfl
  | addMember => exact .inl (apply_cls_setClass (f := Class.parent) _ (by rfl) c)
  | addClassMember => exact .inl (apply_cls_setClass (f := Class.parent) _ (by rfl) c)
  | addMethod => exact .inl (apply_cls_setClass (f := Class.parent) _ (by rfl) c)
  | addClassMethod => exact .inl (apply_cls_setClass (f := Class.parent) _ (by rfl) c)
  | setClassMember => exact .inl (apply_cls_setClass (f := Class.parent) _ (by rfl) c)
  | _ => exact .inl rfl

lemma Edit.lasts (h : Edit strict s s') : Lasts s s' := by
  refine ⟨fun f hf => ?_, fun r hr => ?_, fun c hc => ?_⟩
  · cases h with
    | newFunction => exact Arena.get_push_of_ne _ _ (Nat.ne_of_lt hf)
    | _ => rfl
  · cases h with
    | newInst => exact congrArg Instance.cls (Arena.get_push_of_ne _ _ (Nat.ne_of_lt hr))
    | @setMember q x v =>
      rw [inst_setInst]
      split
      · next e => rw [e]
      · rfl
    | @finish q =>
      rw [inst_setInst]
      split
      · next e => rw [e]
      · rfl
    | _ => rfl
  · rcases h.parent_cases c with e | ⟨e, _⟩
    · exact e
    · exact absurd e (Nat.ne_of_lt hc)

namespace Lasts

variable (h : Lasts s s') (hs : s.Sound strict)
include h hs

lemma lineage_eq {c : Ref .cls} (hc : c.Live s.census) : s'.lineage c = s.lineage c :=
  lineage_congr fun d hd => h.parent d (hs.lineage_live hc d hd)

lemma related {c : Ref .cls} (hc : c.Live s.census) (hf : f.Live s.census)
    (hr : s.Related c f) : s'.Related c f := by
  obtain ⟨owner, hmem, howner⟩ := hr
  refine ⟨owner, ?_, ?_⟩
  · rw [h.lineage_eq hs hc]
    exact hmem
  · rw [h.function f hf]
    exact howner

/-- Kin stay kin. -/
lemma kin {b : Bound} (hb : Cell.Sound strict s.census (k := .bound) b) (hkin : s.Kin b) :
    s'.Kin b := by
  cases b with
  | text m t => trivial
  | list m r => trivial
  | method this f =>
    have hthis : this.Live s.census := hb.values _ List.mem_cons_self
    have hf : f.Live s.census := hb.links ⟨.function, f⟩ List.mem_cons_self
    show s'.Related (s'.inst this).cls f
    rw [h.instance_cls this hthis]
    exact h.related hs (hs.class_live hthis) hf hkin
  | classMethod c f =>
    have hc : c.Live s.census := hb.values _ List.mem_cons_self
    have hf : f.Live s.census := hb.links ⟨.function, f⟩ List.mem_cons_self
    exact h.related hs hc hf hkin
  | super owner receiver =>
    have hr : receiver.value.Live s.census := hb.values _ List.mem_cons_self
    show owner ∈ s'.lineage (s'.receiverClass receiver)
    cases receiver with
    | cls c =>
      have hc : c.Live s.census := hr
      show owner ∈ s'.lineage c
      rw [h.lineage_eq hs hc]
      exact hkin
    | inst this =>
      have hthis : this.Live s.census := hr
      show owner ∈ s'.lineage (s'.inst this).cls
      rw [h.instance_cls this hthis, h.lineage_eq hs (hs.class_live hthis)]
      exact hkin

end Lasts

/-! #### What an edit brings -/

namespace Edit

variable (h : Edit strict s s')
include h

lemma parentsFirst (hs : s.ParentsFirst) : s'.ParentsFirst := by
  intro c parent hparent
  rcases h.parent_cases c with e | ⟨e, above, hlive, habove⟩
  · rw [e] at hparent
    exact hs c parent hparent
  · -- the parent of a new class is there already
    obtain rfl := Option.some.inj (hparent.symm.trans habove)
    rw [e]
    exact hlive

/-- A function comes into a table of the class that owns it only, under its own name. -/
lemma hasMethod_cases {c : Ref .cls} {x : String} (hf : (s'.cls c).HasMethod x f) :
    (s.cls c).HasMethod x f ∨ s.Owns c x f := by
  -- an edit of one class matters to that class only
  have written {q : Ref .cls} {d : Class} (hw : ((s.setClass q d).cls c).HasMethod x f)
      (hd : d.HasMethod x f → (s.cls q).HasMethod x f ∨ s.Owns q x f) :
      (s.cls c).HasMethod x f ∨ s.Owns c x f := by
    rw [cls_setClass] at hw
    split at hw
    · next e =>
      rw [← e]
      exact hd hw
    · exact .inl hw
  cases h with
  | @newClass y parent hlive =>
    change ((s.classes.push (Class.blank y (some parent))).get c.index).HasMethod x f at hf
    rw [Arena.get_push] at hf
    split at hf
    · rcases hf with hf | hf <;> cases hf
    · exact .inl hf
  | addMember => exact written hf .inl
  | addClassMember => exact written hf .inl
  | setClassMember => exact written hf .inl
  | @addMethod q y g _ hlive howner hname _ =>
    refine written hf fun hd => ?_
    rcases hd with hd | hd
    · rcases OrderedMap.find?_insert_cases hd with hd | ⟨e, rfl⟩
      · exact .inl (.inl hd)
      · exact .inr ⟨hlive, howner, hname.trans e⟩
    · exact .inl (.inr hd)
  | @addClassMethod q y g _ hlive howner hname _ =>
    refine written hf fun hd => ?_
    rcases hd with hd | hd
    · exact .inl (.inl hd)
    · rcases OrderedMap.find?_insert_cases hd with hd | ⟨e, rfl⟩
      · exact .inl (.inr hd)
      · exact .inr ⟨hlive, howner, hname.trans e⟩
  | _ => exact .inl hf

/-- What is bound stays as it is, and what is new may be bound. -/
lemma bound_cases {b : Ref .bound} (hb : b.Live s'.census) :
    (b.Live s.census ∧ s'.bound b = s.bound b) ∨
      s.Binds (s'.bound b) ∧ Cell.Sound strict s.census (k := .bound) (s'.bound b) := by
  cases h with
  | @newBound y hv hl hbinds =>
    have hget : (s.add (k := .bound) y).bound b =
        if b.index = s.bounds.size then y else s.bounds.get b.index := Arena.get_push ..
    have hsize : b.index < (s.bounds.push y).size := hb
    rw [Arena.size_push] at hsize
    rw [hget]
    split
    · exact .inr ⟨hbinds, hv, hl, .always⟩
    · exact .inl ⟨show b.index < s.bounds.size by omega, rfl⟩
  | _ => exact .inl ⟨hb, rfl⟩

/-- **Every edit keeps all kin.** -/
lemma kindred (hs : s.Sound strict) (hk : s.Kindred) : s'.Kindred := by
  have hlasts := h.lasts
  have hle := h.census_le hs
  refine ⟨h.parentsFirst hk.parents, fun c x f hf => ?_, fun b hb => ?_⟩
  · have howns : s.Owns c x f := by
      rcases h.hasMethod_cases hf with hf | hf
      · exact hk.tables c x f hf
      · exact hf
    refine ⟨howns.live.mono hle, ?_, ?_⟩
    · rw [hlasts.function f howns.live]
      exact howns.owner
    · rw [hlasts.function f howns.live]
      exact howns.name
  · rcases h.bound_cases hb with ⟨hold, e⟩ | ⟨hbinds, hsound⟩
    · rw [e]
      exact hlasts.kin hs (hs.bound_sound hold rfl) (hk.bound b hold)
    · exact hlasts.kin hs hsound (hk.kin_of_binds hbinds)

end Edit

lemma kindred_initial : Store.initial.Kindred := by
  have hblank (c : Ref .cls) : Store.initial.cls c = Class.blank "object" none ∨
      Store.initial.cls c = default := by
    have hget : Store.initial.cls c = if c.index = Arena.empty.size then
        Class.blank "object" none else Arena.empty.get c.index := Arena.get_push ..
    rw [hget]
    split
    · exact .inl rfl
    · exact .inr (Arena.get_of_size_le Arena.empty (Nat.zero_le _))
  refine ⟨fun c parent hparent => ?_, fun c x f hf => ?_, fun b hb => absurd hb (Nat.not_lt_zero _)⟩
  · rcases hblank c with e | e <;> rw [e] at hparent <;> cases hparent
  · rcases hblank c with e | e <;> rw [e] at hf <;> rcases hf with hf | hf <;> cases hf

/-- **All are kin at all times.** -/
lemma kindred_law (strict : Bool) : Law strict fun s _ => s.Kindred where
  initial := kindred_initial
  blank h := h
  edit h hs hk := h.kindred hs hk
  cacheModule _ _ _ h := h

end Store

end Wei
