import Mathlib.Data.List.Basic
import Wei.Proofs.Reachable
import Wei.Proofs.Tidy

/-!
Constants never change. Scopes, classes and instances each refuse to write a constant by a check of
their own, and parameters are bound without one; here it is shown that together they leave no way
to change a constant, once it is one.

A binding and a class member are constants from when they are declared. A member of an instance is
one when the instance has been constructed and the classes of its line have ended their bodies: till
then `__init__` may write it, or a nearer declaration of the name may still come.
-/

namespace Wei

/-- Something that holds a value and may be constant. -/
inductive Slot where
  | binding (r : Ref .scope) (x : String)
  | classMember (c : Ref .cls) (x : String)
  | member (r : Ref .inst) (x : String)
  deriving DecidableEq

/-- The value that a slot holds, if it holds one. -/
def Store.valueAt (s : Store) : Slot → Option Value
  | .binding r x => ((s.scope r).bindings.find? x).map (·.value)
  | .classMember c x => ((s.cls c).classMembers.find? x).map (·.value)
  | .member r x => ((s.inst r).members.find? x).join

/-- Is the class member constant in this very class? -/
def Store.isConstantClassMember (s : Store) (c : Ref .cls) (x : String) : Bool :=
  ((s.cls c).classMembers.find? x).any (·.constant)

/-- The instance is there, and its construction has ended. -/
structure Store.Finished (s : Store) (r : Ref .inst) : Prop where
  made : r.index < s.instances.size
  ended : (s.inst r).initializing = false

/-- What the instances of a class depend on: the parent and the declared members. -/
def Class.outline (c : Class) : Option (Ref .cls) × OrderedMap String Member :=
  (c.parent, c.members)

namespace Phase

/-- The class is there, and its body does not run any more. -/
def Settled (φ : Phase) (c : Ref .cls) : Prop :=
  c.index < φ.store.classes.size ∧ .cls c ∉ φ.sites

/-- The construction of the instance has ended, and so have the bodies of the classes of its
line. -/
structure Complete (φ : Phase) (r : Ref .inst) : Prop extends φ.store.Finished r where
  settled : ∀ c ∈ φ.store.lineage (φ.store.inst r).cls, φ.Settled c

/-- **What is a constant.** Of a member of an instance the nearest declaration decides. -/
def Constant (φ : Phase) : Slot → Prop
  | .binding r x => φ.store.isConstant r x = true
  | .classMember c x => φ.store.isConstantClassMember c x = true
  | .member r x => φ.Complete r ∧ φ.store.isConstantMember (φ.store.inst r).cls x = true

end Phase

/-! ### What can happen to a constant -/

/-- What `Option.any` is true of, is there. -/
lemma OrderedMap.contains_of_any {ν : Type} {m : OrderedMap String ν} {x : String} {p : ν → Bool}
    (h : (m.find? x).any p = true) : m.contains x = true := by
  unfold OrderedMap.contains
  cases hx : m.find? x with
  | none =>
    rw [hx] at h
    cases h
  | some v => rfl

/-- What is written to another key is not seen. -/
lemma OrderedMap.find?_insert_of_ne_on {ν : Type} {m : OrderedMap String ν} {x y : String}
    {v : ν} {p : Option ν → Bool} (hx : p (m.find? x) = true) (hy : p (m.find? y) = false) :
    (m.insert y v).find? x = m.find? x := by
  rw [OrderedMap.find?_insert, if_neg]
  rintro rfl
  rw [hx] at hy
  cases hy

/-- Whether a member is constant depends on the parents and the members along the line only. -/
lemma Store.isConstantMember_congr {s s' : Store} {r : Ref .cls}
    (hparent : ∀ c ∈ s.lineage r, (s'.cls c).parent = (s.cls c).parent)
    (hmembers : ∀ c ∈ s.lineage r, (s'.cls c).members = (s.cls c).members) (name : String) :
    s'.isConstantMember r name = s.isConstantMember r name := by
  unfold Store.isConstantMember
  rw [Store.lineage_congr hparent, ← List.head?_filterMap, ← List.head?_filterMap]
  rw [List.filterMap_congr fun c hc => by rw [hmembers c hc]]

namespace Phase.Next

variable {φ ψ : Phase} (h : φ.Next ψ)
include h

lemma classes_size_le : φ.store.classes.size ≤ ψ.store.classes.size := by
  cases h with
  | write h =>
    cases h with
    | elsewhere _ hc _ => exact Nat.le_of_eq (congrArg Arena.size hc).symm
    | addMember _ _ => exact Arena.size_le_set ..
    | addClassMember _ _ => exact Arena.size_le_set ..
    | addMethod _ _ => exact Arena.size_le_set ..
    | addClassMethod _ _ => exact Arena.size_le_set ..
    | setClassMember _ _ => exact Arena.size_le_set ..
    | _ => exact Nat.le_refl _
  | openClass s sites x parent =>
    show s.classes.size ≤ (s.classes.push _).size
    rw [Arena.size_push]
    exact Nat.le_succ _
  | _ => exact Nat.le_refl _

lemma instances_size_le : φ.store.instances.size ≤ ψ.store.instances.size := by
  cases h with
  | write h =>
    cases h with
    | elsewhere _ _ hi => exact Nat.le_of_eq (congrArg Arena.size hi).symm
    | newInstance =>
      dsimp only
      rw [Arena.size_push]
      exact Nat.le_succ _
    | setMember _ _ => exact Arena.size_le_set ..
    | finishInstance _ => exact Arena.size_le_set ..
    | _ => exact Nat.le_refl _
  | _ => exact Nat.le_refl _

/-! #### Bindings -/

/-- A constant of a scope is left alone. -/
lemma binding_eq {r : Ref .scope} {x : String} (hc : φ.store.isConstant r x = true) :
    (ψ.store.scope r).bindings.find? x = (φ.store.scope r).bindings.find? x := by
  have hr : r.index < φ.store.scopes.size := by
    by_contra hr
    have hblank : φ.store.scope r = default := Arena.get_of_size_le _ (Nat.le_of_not_lt hr)
    rw [StoreM.isConstant_of_no_bindings (by rw [hblank]; rfl)] at hc
    cases hc
  have hheld : φ.store.holds r x = true := OrderedMap.contains_of_any hc
  rcases h.scope_cases hr with e | ⟨y, b, _, hnew, e⟩ | ⟨y, v, _, hvar, e⟩
  · rw [e]
  · rw [e]
    exact OrderedMap.find?_insert_of_ne_on (p := Option.isSome) hheld hnew
  · rw [e]
    exact OrderedMap.find?_insert_of_ne_on (p := Option.any (·.constant)) hc hvar

/-! #### Class members -/

/-- The class members of a class that is there stay the same, or one that is no constant is
written. -/
lemma classMembers_cases {c : Ref .cls} (hc : c.index < φ.store.classes.size) :
    (ψ.store.cls c).classMembers = (φ.store.cls c).classMembers ∨
      ∃ x b, φ.store.isConstantClassMember c x = false ∧
        (ψ.store.cls c).classMembers = (φ.store.cls c).classMembers.insert x b := by
  cases h with
  | write h =>
    cases h with
    | elsewhere _ hcls _ =>
      left
      unfold Store.cls
      rw [hcls]
    | addMember _ _ => exact .inl (Store.apply_cls_setClass (f := Class.classMembers) _ (by rfl) c)
    | addMethod _ _ => exact .inl (Store.apply_cls_setClass (f := Class.classMembers) _ (by rfl) c)
    | addClassMethod _ _ =>
      exact .inl (Store.apply_cls_setClass (f := Class.classMembers) _ (by rfl) c)
    | @addClassMember q x b _ hnew =>
      dsimp only
      rw [Store.cls_setClass]
      by_cases hq : q = c
      · subst hq
        rw [if_pos rfl]
        refine .inr ⟨x, b, ?_, rfl⟩
        unfold Store.isConstantClassMember
        rw [Option.not_isSome_iff_eq_none.mp (ne_true_of_eq_false hnew)]
        rfl
      · exact .inl (by rw [if_neg hq])
    | @setClassMember q x v _ hvar =>
      dsimp only
      rw [Store.cls_setClass]
      by_cases hq : q = c
      · subst hq
        rw [if_pos rfl]
        exact .inr ⟨x, ⟨v, false⟩, hvar, rfl⟩
      · exact .inl (by rw [if_neg hq])
    | _ => exact .inl rfl
  | openClass s sites x parent =>
    left
    show ((s.classes.push _).get c.index).classMembers = _
    rw [Arena.get_push_of_ne _ _ (Nat.ne_of_lt hc)]
    rfl
  | openScope => exact .inl rfl
  | close => exact .inl rfl

/-- A constant of a class is left alone. -/
lemma classMember_eq {c : Ref .cls} {x : String}
    (hconst : φ.store.isConstantClassMember c x = true) :
    (ψ.store.cls c).classMembers.find? x = (φ.store.cls c).classMembers.find? x := by
  have hc : c.index < φ.store.classes.size := by
    by_contra hc
    have hblank : φ.store.cls c = default := Arena.get_of_size_le _ (Nat.le_of_not_lt hc)
    unfold Store.isConstantClassMember at hconst
    rw [hblank] at hconst
    cases hconst
  rcases h.classMembers_cases hc with e | ⟨y, b, hvar, e⟩
  · rw [e]
  · rw [e]
    exact OrderedMap.find?_insert_of_ne_on (p := Option.any (·.constant)) hconst hvar

/-! #### Members of instances -/

/-- A class whose body has ended is not opened again. -/
lemma settled {c : Ref .cls} (hc : φ.Settled c) : ψ.Settled c := by
  obtain ⟨hthere, hclosed⟩ := hc
  refine ⟨Nat.lt_of_lt_of_le hthere h.classes_size_le, fun hmem => ?_⟩
  rcases h.mem_sites hmem with hmem | e | e
  · exact hclosed hmem
  · cases e
  · obtain ⟨⟩ := e
    exact Nat.lt_irrefl _ hthere

/-- Such a class stays as it is, as far as its instances are concerned. -/
lemma outline_eq {c : Ref .cls} (hc : φ.Settled c) :
    (ψ.store.cls c).outline = (φ.store.cls c).outline := by
  obtain ⟨hthere, hclosed⟩ := hc
  cases h with
  | write h =>
    cases h with
    | elsewhere _ hcls _ =>
      unfold Store.cls
      rw [hcls]
    | @addMember q x d hsite _ =>
      -- another class, since this one is not open
      dsimp only
      rw [Store.cls_setClass, if_neg]
      rintro rfl
      exact hclosed hsite
    | addClassMember _ _ => exact Store.apply_cls_setClass (f := Class.outline) _ (by rfl) c
    | addMethod _ _ => exact Store.apply_cls_setClass (f := Class.outline) _ (by rfl) c
    | addClassMethod _ _ => exact Store.apply_cls_setClass (f := Class.outline) _ (by rfl) c
    | setClassMember _ _ => exact Store.apply_cls_setClass (f := Class.outline) _ (by rfl) c
    | _ => rfl
  | openClass s sites x parent =>
    show ((s.classes.push _).get c.index).outline = _
    rw [Arena.get_push_of_ne _ _ (Nat.ne_of_lt hthere)]
    rfl
  | openScope => rfl
  | close => rfl

/-- An instance that is there stays as it is, or a member that it has is written and that is
allowed, or its construction ends. -/
lemma inst_cases {r : Ref .inst} (hr : r.index < φ.store.instances.size) :
    ψ.store.inst r = φ.store.inst r ∨
      (∃ x v, (φ.store.inst r).members.contains x = true ∧
        ((φ.store.inst r).initializing = true ∨
          φ.store.isConstantMember (φ.store.inst r).cls x = false) ∧
        ψ.store.inst r =
          { φ.store.inst r with members := (φ.store.inst r).members.insert x (some v) }) ∨
      ψ.store.inst r = { φ.store.inst r with initializing := false } := by
  cases h with
  | write h =>
    cases h with
    | elsewhere _ _ hi =>
      left
      unfold Store.inst
      rw [hi]
    | newInstance => exact .inl (Arena.get_push_of_ne _ _ (Nat.ne_of_lt hr))
    | @setMember q x v hheld hmay =>
      dsimp only
      rw [Store.inst_setInst]
      by_cases hq : q = r
      · subst hq
        exact .inr (.inl ⟨x, v, hheld, hmay, if_pos rfl⟩)
      · exact .inl (if_neg hq)
    | @finishInstance q _ =>
      dsimp only
      rw [Store.inst_setInst]
      by_cases hq : q = r
      · subst hq
        exact .inr (.inr (if_pos rfl))
      · exact .inl (if_neg hq)
    | _ => exact .inl rfl
  | openScope => exact .inl rfl
  | openClass => exact .inl rfl
  | close => exact .inl rfl

/-- An instance that is complete stays so, its constant members stay constant, and they are left
alone. -/
lemma member_eq {r : Ref .inst} {x : String} (hr : φ.Complete r)
    (hconst : φ.store.isConstantMember (φ.store.inst r).cls x = true) :
    ψ.Complete r ∧ ψ.store.isConstantMember (ψ.store.inst r).cls x = true ∧
      (ψ.store.inst r).members.find? x = (φ.store.inst r).members.find? x := by
  have houtline (c : Ref .cls) (hc : c ∈ φ.store.lineage (φ.store.inst r).cls) :=
    Prod.mk.inj (h.outline_eq (hr.settled c hc))
  have hline : ψ.store.lineage (φ.store.inst r).cls = φ.store.lineage (φ.store.inst r).cls :=
    Store.lineage_congr fun c hc => (houtline c hc).1
  have hstill : ψ.store.isConstantMember (φ.store.inst r).cls x = true := by
    rw [Store.isConstantMember_congr (fun c hc => (houtline c hc).1) fun c hc => (houtline c hc).2]
    exact hconst
  have hinst : (ψ.store.inst r).cls = (φ.store.inst r).cls ∧
      (ψ.store.inst r).initializing = false ∧
      (ψ.store.inst r).members.find? x = (φ.store.inst r).members.find? x := by
    rcases h.inst_cases hr.made with e | ⟨y, v, _, hmay, e⟩ | e
    · rw [e]
      exact ⟨rfl, hr.ended, rfl⟩
    · rw [e]
      refine ⟨rfl, hr.ended, ?_⟩
      -- it was another member, since this one is constant
      rcases hmay with hinit | hvar
      · rw [hr.ended] at hinit
        cases hinit
      · rw [OrderedMap.find?_insert, if_neg]
        rintro rfl
        rw [hconst] at hvar
        cases hvar
    · rw [e]
      exact ⟨rfl, rfl, rfl⟩
  obtain ⟨hcls, hended, hvalue⟩ := hinst
  refine ⟨⟨⟨Nat.lt_of_lt_of_le hr.made h.instances_size_le, hended⟩, ?_⟩, ?_, hvalue⟩
  · rw [hcls, hline]
    exact fun c hc => h.settled (hr.settled c hc)
  · rw [hcls]
    exact hstill

end Phase.Next

/-! ### Constants in a run -/

namespace Phase

variable {φ ψ : Phase}

/-- Every constant is one still, and holds the same value. -/
def Keeps (φ ψ : Phase) : Prop :=
  ∀ slot, φ.Constant slot → ψ.Constant slot ∧ ψ.store.valueAt slot = φ.store.valueAt slot

lemma Next.keeps (h : φ.Next ψ) : φ.Keeps ψ := by
  intro slot hconst
  cases slot with
  | binding r x =>
    have e := h.binding_eq hconst
    refine ⟨?_, congrArg (Option.map Binding.value) e⟩
    show ((ψ.store.scope r).bindings.find? x).any (·.constant) = true
    rw [e]
    exact hconst
  | classMember c x =>
    have e := h.classMember_eq hconst
    refine ⟨?_, congrArg (Option.map Binding.value) e⟩
    show ((ψ.store.cls c).classMembers.find? x).any (·.constant) = true
    rw [e]
    exact hconst
  | member r x =>
    obtain ⟨hr, hx⟩ := hconst
    obtain ⟨hr', hx', e⟩ := h.member_eq hr hx
    exact ⟨⟨hr', hx'⟩, congrArg Option.join e⟩

lemma Move.keeps (h : φ.Move ψ) : φ.Keeps ψ := by
  cases h with
  | next h => exact h.keeps
  | enter s sites q =>
    intro slot hconst
    refine ⟨?_, rfl⟩
    cases slot with
    | binding r x => exact hconst
    | classMember c x => exact hconst
    | member r x =>
      -- what was opened is a scope and no class
      obtain ⟨hr, hx⟩ := hconst
      refine ⟨⟨hr.toFinished, fun c hc => ⟨(hr.settled c hc).1, fun hmem => ?_⟩⟩, hx⟩
      exact (hr.settled c hc).2 ((List.mem_cons.mp hmem).resolve_left nofun)

/-- **Constants stay**, however long things go on. -/
theorem Later.keeps (h : φ.Later ψ) : φ.Keeps ψ := by
  induction h with
  | refl => exact fun slot hconst => ⟨hconst, rfl⟩
  | tail _ hmove ih =>
    intro slot hconst
    obtain ⟨hstill, e⟩ := ih slot hconst
    obtain ⟨hstill', e'⟩ := hmove.keeps slot hstill
    exact ⟨hstill', e'.trans e⟩

end Phase

/-- The evaluation keeps constants, whatever its outcome and whatever places are open meanwhile. -/
def Eval.KeepsConstants {α : Type} (x : Eval α) : Prop :=
  ∀ sites, x.Changes fun s s' => Phase.Keeps ⟨s, sites⟩ ⟨s', sites⟩

/-- What takes the store from phase to phase keeps constants. -/
lemma Eval.Proceeds.keepsConstants {α : Type} {x : Eval α} (hx : x.Proceeds) : x.KeepsConstants :=
  fun sites m => (hx sites m).keeps

/-- Whatever the evaluator is asked to do keeps constants. -/
structure Evaluator.KeepsConstants (host : Host) (parts : Evaluator) : Prop where
  expr (scope : Ref .scope) (e : Expr) : (parts.expr scope e).KeepsConstants
  stmt (scope : Ref .scope) (s : Stmt) : (parts.stmt scope s).KeepsConstants
  apply (callee : Value) (args : List Value) : (parts.apply callee args).KeepsConstants
  /-- Any method, also `__init__` of an instance that is complete. -/
  method (receiver : Receiver) (f : Ref .function) (args : List Value) :
    (parts.callMethod receiver f args).KeepsConstants
  construct (cls : Ref .cls) (args : List Value) : (parts.construct cls args).KeepsConstants
  iterate (v : Value) : (parts.iterate v).KeepsConstants
  load (name : String) : (Evaluator.load host parts name).KeepsConstants
  /-- What is left of the body of a class. -/
  classBody {sites : List Site} (scope : Ref .scope) {cls : Ref .cls} (body : List Stmt) :
    .cls cls ∈ sites → (parts.classBody scope cls body).Changes
      fun s s' => Phase.Keeps ⟨s, sites⟩ ⟨s', sites⟩

lemma Evaluator.Proceeds.keepsConstants {host : Host} {parts : Evaluator}
    (hp : parts.Proceeds host) : parts.KeepsConstants host where
  expr scope e := (hp.expr scope e).keepsConstants
  stmt scope s := (hp.stmt scope s).keepsConstants
  apply callee args := (hp.apply callee args).keepsConstants
  method receiver f args := (hp.method receiver f args).keepsConstants
  construct cls args := (hp.construct cls args).keepsConstants
  iterate v := (hp.iterate v).keepsConstants
  load name := (hp.load name).keepsConstants
  classBody scope _ body hcls m := (hp.classBody scope body hcls m).keeps

/-! ### How constants come about -/

/-- What is declared as a constant of a scope is one. -/
lemma StoreM.constant_of_declare {s s' : Store} {r : Ref .scope} {x : String} {v : Value}
    (h : StoreM.declare r x v true s = .ok () s') (sites : List Site) :
    Phase.Constant ⟨s', sites⟩ (.binding r x) := by
  by_cases hx : s.holds r x = true
  · cases (if_pos hx).symm.trans h
  · cases (if_neg hx).symm.trans h
    show (((s.writeBinding r x ⟨v, true⟩).scope r).bindings.find? x).any (·.constant) = true
    rw [Store.writeBinding, Store.scope_setScope, if_pos rfl, OrderedMap.find?_insert, if_pos rfl]
    rfl

/-- What is declared as a constant of a class is one. -/
lemma StoreM.constant_of_addClassMember {s s' : Store} {c : Ref .cls} {x : String} {v : Value}
    (h : StoreM.addClassMember c x v true s = .ok () s') (sites : List Site) :
    Phase.Constant ⟨s', sites⟩ (.classMember c x) := by
  by_cases hx : (s.cls c).classMembers.contains x = true
  · cases (if_pos hx).symm.trans h
  · cases (if_neg hx).symm.trans h
    show (((s.setClass c _).cls c).classMembers.find? x).any (·.constant) = true
    rw [Store.cls_setClass, if_pos rfl, OrderedMap.find?_insert, if_pos rfl]
    rfl

/-- Instances stay there. -/
lemma Store.Course.instances_size_le {sites : List Site} {s s' : Store} (h : s.Course sites s') :
    s.instances.size ≤ s'.instances.size := by
  have key : ∀ ψ, Relation.ReflTransGen Phase.Next ⟨s, sites⟩ ψ →
      s.instances.size ≤ ψ.store.instances.size := by
    intro ψ hψ
    induction hψ with
    | refl => exact Nat.le_refl _
    | tail _ hstep ih => exact Nat.le_trans ih hstep.instances_size_le
  exact key _ h

lemma StoreM.finished_of_finishInstance {s s' : Store} {r : Ref .inst}
    (hr : r.index < s.instances.size) (h : StoreM.finishInstance r s = .ok () s') :
    s'.Finished r := by
  unfold StoreM.finishInstance at h
  cases hpending : (s.inst r).members.entries.find? (·.2.isNone) with
  | some e =>
    simp only [hpending] at h
    cases h
  | none =>
    simp only [hpending] at h
    obtain ⟨⟩ := h
    refine ⟨Nat.lt_of_lt_of_le hr (Arena.size_le_set ..), ?_⟩
    rw [Store.inst_setInst, if_pos rfl]

/-- **How a construction comes to an answer**: an instance is made, `__init__` takes its course, and
then the construction of this very instance ends. -/
lemma Evaluator.Tidy.exists_of_construct {parts : Evaluator} (hp : parts.Tidy) {cls : Ref .cls}
    {args : List Value} {m m' : Machine} {v : Value}
    (h : parts.construct cls args m = .ok v m') :
    let this : Ref .inst := ⟨m.world.store.instances.size⟩
    v = .inst this ∧ ∃ s, ((StoreM.newInstance cls).after m.world.store).Course [] s ∧
      StoreM.finishInstance this s = .ok () m'.world.store := by
  intro this
  obtain ⟨made, m₁, hnew, h⟩ := EStateM.exists_of_bind_eq_ok h
  have hmade : StoreM.newInstance cls m.world.store = .ok made m₁.world.store :=
    Eval.eq_ok_of_onStore hnew
  obtain rfl : this = made := (EStateM.Result.ok.inj hmade).1
  rw [EStateM.after_of_ok hmade]
  -- the last step, from any state
  have finish {m₂ : Machine} (h : (do
      Eval.onStore (StoreM.finishInstance this)
      pure (Value.inst this) : Eval Value) m₂ = .ok v m') :
      v = .inst this ∧ StoreM.finishInstance this m₂.world.store = .ok () m'.world.store := by
    obtain ⟨_, m₃, hfinish, h⟩ := EStateM.exists_of_bind_eq_ok h
    obtain ⟨⟩ := h
    exact ⟨rfl, Eval.eq_ok_of_onStore hfinish⟩
  obtain ⟨s, m₂, hs, h⟩ := EStateM.exists_of_bind_eq_ok h
  obtain ⟨⟩ := hs
  dsimp only at h
  split at h
  · cases h
  · cases hinit : m₁.world.store.findMethod? cls "__init__" with
    | none =>
      rw [hinit] at h
      obtain ⟨hv, hfinish⟩ := finish h
      exact ⟨hv, m₁.world.store, .refl _, hfinish⟩
    | some f =>
      rw [hinit] at h
      obtain ⟨_, m₃, hcall, h⟩ := EStateM.exists_of_bind_eq_ok h
      obtain ⟨hv, hfinish⟩ := finish h
      have htidy : (parts.callMethod (.inst this) f args).Tidy [] := hp.callMethod _ f args
      have hcourse := htidy m₁
      rw [EStateM.after_of_ok hcall] at hcourse
      exact ⟨hv, m₃.world.store, hcourse, hfinish⟩

/-- **What a construction answers is an instance whose construction has ended.** -/
theorem Evaluator.Tidy.finished_of_construct {parts : Evaluator} (hp : parts.Tidy) {cls : Ref .cls}
    {args : List Value} {m m' : Machine} {v : Value}
    (h : parts.construct cls args m = .ok v m') :
    ∃ r, v = .inst r ∧ m'.world.store.Finished r := by
  obtain ⟨hv, s, hcourse, hfinish⟩ := hp.exists_of_construct h
  have hsize := hcourse.instances_size_le
  have hmade : m.world.store.instances.size < s.instances.size := by
    refine Nat.lt_of_lt_of_le ?_ hsize
    show m.world.store.instances.size < (m.world.store.instances.push _).size
    rw [Arena.size_push]
    exact Nat.lt_succ_self _
  exact ⟨_, hv, StoreM.finished_of_finishInstance hmade hfinish⟩

/-- Between two turns no body of a class runs, so construction is all that has to have ended. -/
lemma Engine.Reachable.complete {strict : Bool} {p : Engine} (hp : p.Reachable strict)
    {r : Ref .inst} (hr : p.store.Finished r) : Phase.Complete ⟨p.store, []⟩ r := by
  have hs := hp.sound.store
  refine ⟨hr, fun c hc => ⟨?_, List.not_mem_nil⟩⟩
  exact hs.lineage_live (hs.class_live hr.made) c hc

/-! ### The law of constants -/

/-- **Constants never change.** What is declared as a constant of a scope or of a class is one from
then on. A member of an instance whose nearest declaration is constant is one when the construction
has ended and the bodies of the classes of its line have, as they all have between two turns. From
then on it is a constant, and holds the same value: whatever is evaluated in whatever state with
whatever outcome, and however hosts go on. What they do takes the store from phase to phase, also in
the middle of a turn, and from no phase to a later one does a constant change. -/
theorem Engine.constants_never_change :
    (∀ host rounds depth,
      (Evaluator.ofDepth (Evaluator.load host) rounds depth).KeepsConstants host) ∧
    (∀ p q : Engine, p.Leads q → Phase.Later ⟨p.store, []⟩ ⟨q.store, []⟩) ∧
    (∀ φ ψ : Phase, φ.Later ψ → φ.Keeps ψ) ∧
    (∀ s s' r x v sites, StoreM.declare r x v true s = .ok () s' →
      Phase.Constant ⟨s', sites⟩ (.binding r x)) ∧
    (∀ s s' c x v sites, StoreM.addClassMember c x v true s = .ok () s' →
      Phase.Constant ⟨s', sites⟩ (.classMember c x)) ∧
    (∀ host rounds depth cls args m m' v,
      (Evaluator.ofDepth (Evaluator.load host) rounds depth).construct cls args m = .ok v m' →
        ∃ r, v = .inst r ∧ m'.world.store.Finished r) ∧
    ∀ p : Engine, p.Reachable false → ∀ r, p.store.Finished r → Phase.Complete ⟨p.store, []⟩ r := by
  refine ⟨fun host rounds depth => ?_, fun p q h => h.later, fun φ ψ h => h.keeps,
    fun s s' r x v sites h => ?_, fun s s' c x v sites h => ?_,
    fun host rounds depth cls args m m' v h => ?_, fun p hp r hr => hp.complete hr⟩
  · exact (Evaluator.ofDepth_proceeds host rounds depth).keepsConstants
  · exact StoreM.constant_of_declare h sites
  · exact StoreM.constant_of_addClassMember h sites
  · exact (Evaluator.ofDepth_tidy host rounds depth).finished_of_construct h

/-- An instance is made whose member is constant. Then it is tried to write the member, which does
not change it. -/
theorem Engine.constant_member_is_kept :
    let host : Host := ⟨.empty ⟨[]⟩, fun _ _ => .syntaxError "", Text.line?⟩
    let start := Engine.initial.newSession false .standard none
    let first := (start.turn 0 (Eval.openModule host "")).2
    let body : List Stmt := [.mk 2 (.member "m" (some (.literal (.int 1))) true false)]
    let program : Node := .program ⟨[.mk 1 (.classDef "C" none body),
      .mk 3 (.declare "o" (some (.call (.name "C") [])) false)]⟩
    let second := (first.turn 0 (Eval.evaluate host ⟨6, 1⟩ program ⟨0⟩)).2
    let write : Node := .stmt (.mk 1 (.assign (.attr (.name "o") "m") (.literal (.int 2))))
    let third := (second.turn 0 (Eval.evaluate host ⟨6, 1⟩ write ⟨0⟩)).2
    Phase.Constant ⟨second.store, []⟩ (.member ⟨0⟩ "m") ∧
      second.store.valueAt (.member ⟨0⟩ "m") = some (.int 1) ∧
      third.store.valueAt (.member ⟨0⟩ "m") = second.store.valueAt (.member ⟨0⟩ "m") := by
  intro host start first body program second write third
  have hsecond : second.Reachable false :=
    .evaluate 0 ⟨6, 1⟩ (.openModule 0 host "" (.newSession false .standard none .initial))
      (fun _ _ _ _ => .of_lax _) (.of_lax _) Nat.zero_lt_one
  have hstep : second.Leads third := .single (.evaluate 0 host ⟨6, 1⟩ write ⟨0⟩)
  have hfinished : second.store.Finished ⟨0⟩ := ⟨by decide +kernel, by decide +kernel⟩
  have hdeclared : second.store.isConstantMember (second.store.inst ⟨0⟩).cls "m" = true := by
    decide +kernel
  have hvalue : second.store.valueAt (.member ⟨0⟩ "m") = some (.int 1) := by decide +kernel
  -- what the states are is of no importance from here on
  clear_value third second
  obtain ⟨-, hleads, hkeeps, -, -, -, hcomplete⟩ := Engine.constants_never_change
  have hconst : Phase.Constant ⟨second.store, []⟩ (.member ⟨0⟩ "m") :=
    ⟨hcomplete second hsecond ⟨0⟩ hfinished, hdeclared⟩
  exact ⟨hconst, hvalue, (hkeeps _ _ (hleads second third hstep) _ hconst).2⟩

end Wei
