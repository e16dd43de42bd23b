import Mathlib.Data.List.Chain
import Wei.Proofs.After
import Wei.Proofs.Kinship
import Wei.Proofs.Nearest

/-!
`super` depends on where a method is defined and not on who runs it. It is the view from the class
that owns the method, upwards: what it answers for a name is decided by the nearest class above that
has something to show under the name. Since functions are owned by the classes in whose tables they
stand, the way from one method to the next by `super` always climbs, and never comes to a class
twice.
-/

namespace Wei

/-! ### What `super` answers -/

/-- Does the class show the name to `super`? The methods of instances show to instances only. -/
def Class.shows (c : Class) (toInstance : Bool) (x : String) : Bool :=
  toInstance && c.methods.contains x || c.classMembers.contains x || c.classMethods.contains x

/-- Is the receiver an instance? -/
def Receiver.isInstance : Receiver → Bool
  | .inst _ => true
  | .cls _ => false

/-- What is answered, on behalf of a receiver, for a name that the class `c` shows: an instance
method if the receiver is an instance, else a class member, else a class method. A method is bound
to the receiver, or to its class; a class member is answered as it is. -/
inductive Store.SuperAnswer (s : Store) (c : Class) (x : String) :
    Receiver → Value → Store → Prop
  | method {this : Ref .inst} {f : Ref .function} : c.methods.find? x = some f →
    SuperAnswer s c x (.inst this) (.bound (s.next .bound)) (s.add (k := .bound) (.method this f))
  | classMember {receiver : Receiver} {b : Binding} :
    (receiver.isInstance && c.methods.contains x) = false → c.classMembers.find? x = some b →
    SuperAnswer s c x receiver b.value s
  | classMethod {receiver : Receiver} {f : Ref .function} :
    (receiver.isInstance && c.methods.contains x) = false → c.classMembers.contains x = false →
    c.classMethods.find? x = some f →
    SuperAnswer s c x receiver (.bound (s.next .bound))
      (s.add (k := .bound) (.classMethod (s.receiverClass receiver) f))

lemma Class.isSome_superSlot? (c : Class) (receiver : Receiver) (x : String) :
    (c.superSlot? receiver x).isSome = c.shows receiver.isInstance x := by
  unfold shows
  cases receiver with
  | cls r =>
    show ((c.slot? x).map Sum.inr).isSome = _
    simp [Receiver.isInstance, isSome_slot?]
  | inst this =>
    unfold superSlot?
    dsimp only
    cases hm : c.methods.find? x with
    | some f => simp [Receiver.isInstance, OrderedMap.contains, hm]
    | none =>
      have hnone : c.methods.contains x = false := by simp [OrderedMap.contains, hm]
      simp [Receiver.isInstance, hnone, isSome_slot?]

namespace Store

variable {s : Store} {owner : Ref .cls} {receiver : Receiver}

/-- The class in which `super` finds a name. It depends on the owner, and of the receiver only on
whether that is an instance. -/
def superClass? (s : Store) (owner : Ref .cls) (toInstance : Bool) (x : String) :
    Option (Ref .cls) :=
  (s.above owner).find? fun c => (s.cls c).shows toInstance x

lemma ParentsFirst.findSuper?_eq_bind (hs : s.ParentsFirst) (owner : Ref .cls)
    (receiver : Receiver) (x : String) : s.findSuper? owner receiver x =
      (s.superClass? owner receiver.isInstance x).bind
        fun c => (s.cls c).superSlot? receiver x := by
  rw [hs.findSuper?_eq]
  exact findSome?_eq_bind_find? (fun c => (s.cls c).isSome_superSlot? receiver x) _

/-- What is found through `super`, on behalf of a receiver. -/
lemma superAttribute?_eq (s : Store) (owner : Ref .cls) (receiver : Receiver) (x : String) :
    StoreM.superAttribute? owner receiver x s =
      match s.findSuper? owner receiver x, receiver with
      | some (.inl f), .inst this =>
        .ok (some (.bound (s.next .bound))) (s.add (k := .bound) (.method this f))
      | some (.inr (.member b)), _ => .ok (some b.value) s
      | some (.inr (.method f)), receiver =>
        .ok (some (.bound (s.next .bound)))
          (s.add (k := .bound) (.classMethod (s.receiverClass receiver) f))
      | _, _ => .ok none s := by
  show (match s.findSuper? owner receiver x, receiver with
    | some (.inl f), .inst this =>
      (do pure (some (.bound (← StoreM.newBound (.method this f)))) : StoreM (Option Value))
    | some (.inr (.member b)), _ => pure (some b.value)
    | some (.inr (.method f)), _ => do
      pure (some (.bound (← StoreM.newBound (.classMethod (s.receiverClass receiver) f))))
    | _, _ => pure none) s = _
  generalize s.findSuper? owner receiver x = found
  rcases found with _ | f | b | f
  · rfl
  · cases receiver <;> rfl
  · rfl
  · rfl

/-- What a class says through `super` is answered. -/
lemma superAttribute?_of_superSlot? {c : Class} {x : String} {found : Ref .function ⊕ ClassSlot}
    (hslot : c.superSlot? receiver x = some found)
    (h : s.findSuper? owner receiver x = some found) :
    ∃ v s', StoreM.superAttribute? owner receiver x s = .ok (some v) s' ∧
      s.SuperAnswer c x receiver v s' := by
  rw [superAttribute?_eq, h]
  cases found with
  | inl f =>
    obtain ⟨⟨this, rfl⟩, hf⟩ := Class.exists_of_superSlot?_eq_inl hslot
    exact ⟨_, _, rfl, .method hf⟩
  | inr slot =>
    -- the method of an instance would go before what the class has for itself
    have hnone : (receiver.isInstance && c.methods.contains x) = false := by
      cases receiver with
      | cls r => rfl
      | inst this =>
        unfold Class.superSlot? at hslot
        dsimp only at hslot
        split at hslot
        · cases hslot
        · next hm => simp [OrderedMap.contains, hm]
    have hc := Class.slot?_of_superSlot?_eq_inr hslot
    unfold Class.slot? at hc
    split at hc
    · next b hb =>
      obtain ⟨⟩ := hc
      exact ⟨_, _, rfl, .classMember hnone hb⟩
    · next hb =>
      obtain ⟨f, hf, e⟩ := Option.map_eq_some_iff.mp hc
      obtain ⟨⟩ := e
      exact ⟨_, _, rfl, .classMethod hnone (by simp [OrderedMap.contains, hb]) hf⟩

/-- A view looks its attributes up through `super`. -/
lemma attribute?_super {b : Ref .bound} (hb : s.bound b = .super owner receiver) (x : String) :
    StoreM.attribute? (.bound b) x s = StoreM.superAttribute? owner receiver x s := by
  have hget : (get : StoreM Store) s = .ok s s := rfl
  refine (EStateM.bind_of_ok hget).trans ?_
  rw [hb]

/-- **What `super` answers is decided by the first class strictly above the owner that shows the
name.** If there is none, there is no such attribute. -/
theorem ParentsFirst.getAttribute_super (hs : s.ParentsFirst) {b : Ref .bound}
    (hb : s.bound b = .super owner receiver) (x : String) :
    match s.superClass? owner receiver.isInstance x with
    | none => StoreM.getAttribute (.bound b) x s = .error (.noAttribute (s.label (.bound b)) x) s
    | some c => ∃ v s', StoreM.getAttribute (.bound b) x s = .ok v s' ∧
        s.SuperAnswer (s.cls c) x receiver v s' := by
  have hattr := attribute?_super hb x
  have hfind := hs.findSuper?_eq_bind owner receiver x
  cases hc : s.superClass? owner receiver.isInstance x with
  | none =>
    rw [hc] at hfind
    have hnone : StoreM.attribute? (.bound b) x s = .ok none s := by
      rw [hattr, superAttribute?_eq, hfind]
      rfl
    exact EStateM.bind_of_ok hnone
  | some c =>
    rw [hc] at hfind
    have hshows := List.find?_some hc
    rw [← Class.isSome_superSlot?] at hshows
    obtain ⟨found, hfound⟩ := Option.isSome_iff_exists.mp hshows
    obtain ⟨v, s', hv, hanswer⟩ :=
      superAttribute?_of_superSlot? hfound (hfind.trans hfound)
    rw [← hattr] at hv
    exact ⟨v, s', EStateM.bind_of_ok hv, hanswer⟩

/-- Of the receiver only its kind matters to what is found. -/
lemma findSuper?_congr {receiver receiver' : Receiver}
    (h : receiver.isInstance = receiver'.isInstance) (owner : Ref .cls) (x : String) :
    s.findSuper? owner receiver x = s.findSuper? owner receiver' x := by
  cases receiver with
  | inst this =>
    cases receiver' with
    | inst that => rfl
    | cls c => cases h
  | cls c =>
    cases receiver' with
    | inst that => cases h
    | cls d => rfl

end Store

/-! ### Climbing -/

/-- The function that is bound, if it is one of a script. -/
def Bound.function? : Bound → Option (Ref .function)
  | .method _ f => some f
  | .classMethod _ f => some f
  | _ => none

/-- Through `super`, as it stands in the methods of the class `c`, a method is found that the class
`d` owns. -/
def Store.Climbs (s : Store) (x : String) (c d : Ref .cls) : Prop :=
  ∃ (b : Ref .bound) (receiver : Receiver) (s' : Store) (f : Ref .function),
    b.Live s.census ∧ s.bound b = .super c receiver ∧
      StoreM.getAttribute (.bound b) x s = .ok (.bound (s.next .bound)) s' ∧
      (s'.bound (s.next .bound)).function? = some f ∧ (s'.function f).owner = some d

namespace Store

variable {strict : Bool} {s : Store}

/-- **What is found through `super` is owned by a class strictly above.** -/
theorem Kindred.mem_above_of_climbs (hk : s.Kindred) (hs : s.Sound strict) {x : String}
    {c d : Ref .cls} (h : s.Climbs x c d) : d ∈ s.above c := by
  obtain ⟨b, receiver, s', f, hlive, hb, hget, hf, howner⟩ := h
  have hanswer := hk.parents.getAttribute_super hb x
  cases he : s.superClass? c receiver.isInstance x with
  | none =>
    rw [he] at hanswer
    cases hget.symm.trans hanswer
  | some e =>
    rw [he] at hanswer
    obtain ⟨v, s'', hget', hanswer⟩ := hanswer
    obtain ⟨hv, rfl⟩ := EStateM.Result.ok.inj (hget.symm.trans hget')
    have hmem : e ∈ s.above c := List.mem_of_find?_eq_some he
    -- the new cell, whatever is bound in it
    have hnew (y : Bound) : (s.add (k := .bound) y).bound (s.next .bound) = y :=
      Arena.get_push_size ..
    have hfound (hm : (s.cls e).HasMethod x f) (howner : (s.function f).owner = some d) :
        d ∈ s.above c := by
      obtain rfl := Option.some.inj ((hk.tables e x f hm).owner.symm.trans howner)
      exact hmem
    cases hanswer with
    | method hm =>
      rw [hnew] at hf
      obtain ⟨⟩ := hf
      exact hfound (.inl hm) howner
    | classMethod _ _ hm =>
      rw [hnew] at hf
      obtain ⟨⟩ := hf
      exact hfound (.inr hm) howner
    | @classMember _ y _ hy =>
      -- nothing has been bound, and what a class member holds is not dangling
      have hc : c.Live s.census := (hs.bound_sound hlive hb).links ⟨.cls, c⟩ List.mem_cons_self
      have he := hs.lineage_live hc e (mem_lineage_of_mem_above hmem)
      have hvalue := hs.classMember_live he (OrderedMap.mem_values_of_find? hy)
      rw [← hv] at hvalue
      exact absurd hvalue (Nat.lt_irrefl _)

/-- **Who climbs never comes back**, also if the store changes on the way. -/
theorem nodup_of_climbs {cs : List (Ref .cls)}
    (h : cs.IsChain fun c d =>
      ∃ (s : Store) (x : String), s.Sound strict ∧ s.Kindred ∧ s.Climbs x c d) : cs.Nodup := by
  have hdown : cs.IsChain fun c d => d.index < c.index := by
    refine h.imp ?_
    rintro c d ⟨s, x, hs, hk, hclimb⟩
    exact index_lt_of_mem_above (hk.mem_above_of_climbs hs hclimb)
  have htrans : IsTrans (Ref .cls) fun c d => d.index < c.index :=
    ⟨fun _ _ _ hab hbc => Nat.lt_trans hbc hab⟩
  refine (List.isChain_iff_pairwise.mp hdown).imp ?_
  rintro c d hlt rfl
  exact Nat.lt_irrefl _ hlt

end Store

/-- In a call, `super` stands for the view from the class that owns the function. -/
lemma Evaluator.receiverBindings_of_owner {s : Store} {f : Ref .function} {owner : Ref .cls}
    (h : (s.function f).owner = some owner) (receiver : Receiver) :
    receiverBindings receiver f s =
      .ok [ownBinding receiver, ("super", .bound (s.next .bound))]
        (s.add (k := .bound) (.super owner receiver)) := by
  show (match (s.function f).owner with
    | none => pure [ownBinding receiver]
    | some owner => do
      return [ownBinding receiver,
        ("super", .bound (← StoreM.newBound (.super owner receiver)))] : StoreM _) s = _
  rw [h]
  rfl

/-- What an operation of a session does is a run, whatever its outcome. -/
lemma Eval.Does.run_after {R : Regime} {α : Type} {x : Eval α} {m : Machine}
    {Q : Store → α → Prop} (h : x.Does R m Q) (hm : m.Sound R.strict) :
    Machine.Run R.strict m (x.after m) := by
  have h := h hm
  unfold EStateM.after
  generalize x m = r at h ⊢
  cases r with
  | ok a m' => exact h.1
  | error e m' => exact h.1

/-- At all times during a turn all are kin. -/
lemma Engine.Reachable.sound_and_kindred {p : Engine} (hp : p.Reachable false) {i : Nat}
    {m : Machine} (hm : Machine.Run false (p.machine i) m) :
    m.Sound false ∧ m.world.store.Kindred := by
  have hsound := hp.sound.machine i
  have law := Store.kindred_law false
  exact ⟨Conduct.Run.sound (C := Machine.conduct (.lenient false)) hm hsound,
    law.run hm hsound (law.reachable hp i)⟩

/-! ### The law of `super` -/

/-- **`super` is relative to the class that defines a method, and always climbs**, in every state
that a session can get into during a turn, after whatever hosts have done before. Every function in
a table of a class is owned by the class and stands there under its own name, and all that has been
bound is kin to its receiver. In a call `super` is the view from the owner of the function. What it
answers for a name is decided by the first class strictly above the owner that shows the name, and
of the receiver only its kind matters, besides that methods are bound to it. A method that is found
in this way is owned by a class strictly above, so no class comes twice in a chain of such steps, in
whatever states they are made. -/
theorem Engine.Reachable.super_always_climbs {p : Engine} (hp : p.Reachable false) (i : Nat)
    {m : Machine} (hm : Machine.Run false (p.machine i) m) :
    let s := m.world.store
    (∀ c x f, (s.cls c).HasMethod x f →
      (s.function f).owner = some c ∧ (s.function f).name.getD "" = x) ∧
    (∀ b, b.Live s.census → s.Kin (s.bound b)) ∧
    (∀ receiver f owner, (s.function f).owner = some owner →
      Evaluator.receiverBindings receiver f s =
        .ok [Evaluator.ownBinding receiver, ("super", .bound (s.next .bound))]
          (s.add (k := .bound) (.super owner receiver))) ∧
    (∀ b owner receiver x, s.bound b = .super owner receiver →
      match s.superClass? owner receiver.isInstance x with
      | none => StoreM.getAttribute (.bound b) x s = .error (.noAttribute (s.label (.bound b)) x) s
      | some c => ∃ v s', StoreM.getAttribute (.bound b) x s = .ok v s' ∧
          s.SuperAnswer (s.cls c) x receiver v s') ∧
    (∀ owner receiver receiver' x, receiver.isInstance = receiver'.isInstance →
      s.findSuper? owner receiver x = s.findSuper? owner receiver' x) ∧
    (∀ x c d, s.Climbs x c d → d ∈ s.above c ∧ d ≠ c) ∧
    (∀ cs : List (Ref .cls),
      cs.IsChain (fun c d => ∃ (q : Engine) (j : Nat) (m' : Machine) (x : String),
        q.Reachable false ∧ Machine.Run false (q.machine j) m' ∧ m'.world.store.Climbs x c d) →
      cs.Nodup) ∧
    ∀ host limits n scope, scope.Live m.census →
      Machine.Run false m ((Eval.evaluate host limits n scope).after m) := by
  intro s
  obtain ⟨hsound, hk⟩ := hp.sound_and_kindred hm
  refine ⟨fun c x f hf => ?_, hk.bound, fun receiver f owner howner => ?_,
    fun b owner receiver x hb => hk.parents.getAttribute_super hb x,
    fun owner receiver receiver' x h => Store.findSuper?_congr h owner x, fun x c d h => ?_,
    fun cs hcs => ?_, fun host limits n scope hscope => ?_⟩
  · have howns := hk.tables c x f hf
    exact ⟨howns.owner, howns.name⟩
  · exact Evaluator.receiverBindings_of_owner howner receiver
  · have habove := hk.mem_above_of_climbs hsound.store h
    refine ⟨habove, ?_⟩
    rintro rfl
    exact Nat.lt_irrefl _ (Store.index_lt_of_mem_above habove)
  · have hsteps : cs.IsChain fun c d =>
        ∃ (s : Store) (x : String), s.Sound false ∧ s.Kindred ∧ s.Climbs x c d := by
      refine hcs.imp ?_
      rintro c d ⟨q, j, m', x, hq, hm', hclimb⟩
      obtain ⟨hsound', hk'⟩ := hq.sound_and_kindred hm'
      exact ⟨m'.world.store, x, hsound'.store, hk', hclimb⟩
    exact Store.nodup_of_climbs hsteps
  · have hdoes : (Eval.evaluate host limits n scope).Does (.lenient false) m
        fun s v => v.Live s.census :=
      Eval.evaluate_does (fun _ => trivial) (fun _ _ _ _ => .of_lax _) limits hscope (.of_lax _)
    exact hdoes.run_after hsound

private lemma eq_super_of_view {b : Bound} {owner : Ref .cls} {receiver : Receiver}
    (h : (match b with
      | .super owner' receiver' => decide (owner' = owner ∧ receiver' = receiver)
      | _ => false) = true) : b = .super owner receiver := by
  cases b with
  | super owner' receiver' =>
    obtain ⟨rfl, rfl⟩ := of_decide_eq_true h
    rfl
  | _ => cases h

/-- Of three classes, each the child of the one before, the first two have a method of the same
name. Called on an instance of the third, the method of the second calls that of the first by way
of `super`: the view is that from the second class, and it shows the first. -/
theorem Engine.Reachable.super_climbs_from_grandchild :
    let host : Host := ⟨.empty ⟨[]⟩, fun _ _ => .syntaxError "", Text.line?⟩
    let start := Engine.initial.newSession false .standard none
    let first := (start.turn 0 (Eval.openModule host "")).2
    let go (body : Expr) : Stmt := .mk 1 (.method ⟨some "go", [], [.mk 1 (.ret (some body))]⟩ false)
    let program : Node := .program ⟨[
      .mk 1 (.classDef "A" none [go (.literal (.int 1))]),
      .mk 2 (.classDef "B" (some (.name "A")) [go (.call (.attr (.name "super") "go") [])]),
      .mk 3 (.classDef "C" (some (.name "B")) []),
      .mk 4 (.eval (.call (.attr (.call (.name "C") []) "go") []))]⟩
    let second := (first.turn 0 (Eval.evaluate host ⟨12, 1⟩ program ⟨0⟩)).2
    let s := second.store
    s.bound ⟨1⟩ = .super ⟨2⟩ (.inst ⟨0⟩) ∧ (s.inst ⟨0⟩).cls = ⟨3⟩ ∧ s.Kin (s.bound ⟨1⟩) ∧
      ∃ v s', StoreM.getAttribute (.bound ⟨1⟩) "go" s = .ok v s' ∧
        s.SuperAnswer (s.cls ⟨1⟩) "go" (.inst ⟨0⟩) v s' := by
  intro host start first go program second s
  have hsecond : second.Reachable false :=
    .evaluate 0 ⟨12, 1⟩ (.openModule 0 host "" (.newSession false .standard none .initial))
      (fun _ _ _ _ => .of_lax _) (.of_lax _) Nat.zero_lt_one
  have hbound : s.bound ⟨1⟩ = .super ⟨2⟩ (.inst ⟨0⟩) := eq_super_of_view (by decide +kernel)
  have hcls : (s.inst ⟨0⟩).cls = ⟨3⟩ := by decide +kernel
  have hlive : (⟨1⟩ : Ref .bound).index < s.bounds.size := by decide +kernel
  have hclass : s.superClass? ⟨2⟩ true "go" = some ⟨1⟩ := by decide +kernel
  -- what the state is is of no importance from here on
  clear_value second
  obtain ⟨-, hkin, -, hanswer, -⟩ := hsecond.super_always_climbs 0 .refl
  have hsuper := hanswer ⟨1⟩ ⟨2⟩ (.inst ⟨0⟩) "go" hbound
  have hfirst : (second.machine 0).world.store.superClass? ⟨2⟩
      (Receiver.inst ⟨0⟩).isInstance "go" = some ⟨1⟩ := hclass
  rw [hfirst] at hsuper
  exact ⟨hbound, hcls, hkin ⟨1⟩ hlive, hsuper⟩

end Wei
