import Wei.Proofs.Constants

/-!
Construction delivers only instances that are ready. While `__init__` runs, scripts have the
instance in their hands already: they may store it, write to it, and call `__init__` on it again.
But the names of its members are settled when it is made, and whatever happens, a member that has a
value keeps having one. So what construction answers, after it has found that no member is pending,
stays as good as it is then, and to read a member of it never fails.
-/

namespace Wei

/-! ### The names of the members -/

lemma OrderedMap.mem_keys_insert {κ ν : Type} [DecidableEq κ] {m : OrderedMap κ ν} {k j : κ}
    {v : ν} : j ∈ (m.insert k v).keys ↔ j ∈ m.keys ∨ j = k := by
  rw [OrderedMap.keys_insert]
  by_cases hk : k ∈ m.keys
  · rw [if_pos hk]
    exact ⟨.inl, fun h => h.elim id fun e => e ▸ hk⟩
  · rw [if_neg hk, List.mem_append, List.mem_singleton]

/-- The keys after a list of writes. -/
lemma OrderedMap.mem_keys_foldl_insert {κ ν μ : Type} [DecidableEq κ] (g : κ × μ → ν)
    (es : List (κ × μ)) (m : OrderedMap κ ν) (k : κ) :
    k ∈ (es.foldl (fun acc e => acc.insert e.1 (g e)) m).keys ↔
      k ∈ m.keys ∨ k ∈ es.map (·.1) := by
  induction es generalizing m with
  | nil => simp
  | cons e rest ih =>
    rw [List.foldl_cons, ih, OrderedMap.mem_keys_insert, List.map_cons, List.mem_cons, or_assoc]

namespace Store

variable {s : Store}

/-- The name is declared as a member by the class or by one of its ancestors. -/
def Declares (s : Store) (c : Ref .cls) (x : String) : Prop :=
  ∃ d ∈ s.lineage c, (s.cls d).members.contains x = true

/-- **A new instance has a member for every name that the line of its class declares**, and no
other. -/
lemma mem_keys_flattenedMembers {c : Ref .cls} {x : String} :
    x ∈ (s.flattenedMembers c).keys ↔ s.Declares c x := by
  have key (cs : List (Ref .cls)) (acc : OrderedMap String (Option Value)) :
      x ∈ (cs.foldl (fun acc c => (s.cls c).members.entries.foldl
          (fun acc e => acc.insert e.1 e.2.default) acc) acc).keys ↔
        x ∈ acc.keys ∨ ∃ d ∈ cs, (s.cls d).members.contains x = true := by
    induction cs generalizing acc with
    | nil => simp
    | cons d rest ih =>
      have hinner := OrderedMap.mem_keys_foldl_insert (fun e : String × Member => e.2.default)
      rw [List.foldl_cons, ih, hinner]
      simp only [List.exists_mem_cons_iff, OrderedMap.contains_iff, OrderedMap.keys, or_assoc]
  unfold flattenedMembers Declares
  rw [key]
  simp [OrderedMap.keys, OrderedMap.empty]

/-! ### Instances that are made, and instances that are ready -/

/-- The instance is there, it is one of this class, and its members have these names. -/
structure Shaped (s : Store) (r : Ref .inst) (cls : Ref .cls) (names : List String) : Prop where
  made : r.index < s.instances.size
  class_eq : (s.inst r).cls = cls
  names_eq : (s.inst r).members.keys = names

/-- **The instance is ready**: every member has a value, and the construction has ended. -/
structure Ready (s : Store) (r : Ref .inst) (cls : Ref .cls) (names : List String) : Prop
    extends s.Shaped r cls names where
  full : ∀ e ∈ (s.inst r).members.entries, e.2.isSome
  ended : (s.inst r).initializing = false

end Store

namespace Phase.Next

variable {φ ψ : Phase} {r : Ref .inst} {cls : Ref .cls} {names : List String}

/-- Class and names of the members are settled from the beginning, also while `__init__` runs. -/
lemma shaped (h : φ.Next ψ) (hr : φ.store.Shaped r cls names) : ψ.store.Shaped r cls names := by
  have hmade : r.index < ψ.store.instances.size :=
    Nat.lt_of_lt_of_le hr.made h.instances_size_le
  rcases h.inst_cases hr.made with e | ⟨x, v, hheld, _, e⟩ | e
  · refine ⟨hmade, ?_, ?_⟩
    · rw [e, hr.class_eq]
    · rw [e, hr.names_eq]
  · -- only a member that is there is written, so there is no new name
    have hx : x ∈ (φ.store.inst r).members.keys := (OrderedMap.contains_iff _ x).mp hheld
    refine ⟨hmade, ?_, ?_⟩
    · rw [e]
      exact hr.class_eq
    · rw [e]
      dsimp only
      rw [OrderedMap.keys_insert, if_pos hx, hr.names_eq]
  · refine ⟨hmade, ?_, ?_⟩
    · rw [e]
      exact hr.class_eq
    · rw [e]
      exact hr.names_eq

/-- What is ready stays ready. -/
lemma ready (h : φ.Next ψ) (hr : φ.store.Ready r cls names) : ψ.store.Ready r cls names := by
  have hshape := h.shaped hr.toShaped
  rcases h.inst_cases hr.made with e | ⟨x, v, _, _, e⟩ | e
  · refine ⟨hshape, ?_, ?_⟩
    · rw [e]
      exact hr.full
    · rw [e]
      exact hr.ended
  · refine ⟨hshape, ?_, ?_⟩
    · rw [e]
      intro entry hentry
      rcases OrderedMap.mem_entries_insert hentry with rfl | hold
      · rfl
      · exact hr.full entry hold
    · rw [e]
      exact hr.ended
  · refine ⟨hshape, ?_, ?_⟩
    · rw [e]
      exact hr.full
    · rw [e]

end Phase.Next

namespace Phase.Later

variable {φ ψ : Phase} {r : Ref .inst} {cls : Ref .cls} {names : List String}

lemma shaped (h : φ.Later ψ) (hr : φ.store.Shaped r cls names) : ψ.store.Shaped r cls names :=
  h.keep (P := fun s => s.Shaped r cls names) (fun _ _ hnext => hnext.shaped) hr

/-- **What is ready stays ready**, however long things go on. -/
theorem ready (h : φ.Later ψ) (hr : φ.store.Ready r cls names) : ψ.store.Ready r cls names :=
  h.keep (P := fun s => s.Ready r cls names) (fun _ _ hnext => hnext.ready) hr

end Phase.Later

/-! ### Construction -/

/-- What is made has the shape that the line of its class gives it at that moment. -/
lemma StoreM.newInstance_shaped (cls : Ref .cls) (s : Store) :
    ((StoreM.newInstance cls).after s).Shaped ⟨s.instances.size⟩ cls
      (s.flattenedMembers cls).keys := by
  have hnew : ((StoreM.newInstance cls).after s).inst ⟨s.instances.size⟩ =
      ⟨cls, s.flattenedMembers cls, true⟩ := Arena.get_push_size ..
  refine ⟨?_, ?_, ?_⟩
  · show s.instances.size < (s.instances.push _).size
    rw [Arena.size_push]
    exact Nat.lt_succ_self _
  · rw [hnew]
  · rw [hnew]

/-- Construction ends only if no member is pending. -/
lemma StoreM.ready_of_finishInstance {s s' : Store} {r : Ref .inst} {cls : Ref .cls}
    {names : List String} (hr : s.Shaped r cls names)
    (h : StoreM.finishInstance r s = .ok () s') : s'.Ready r cls names := by
  have hfinished := StoreM.finished_of_finishInstance hr.made h
  unfold StoreM.finishInstance at h
  cases hpending : (s.inst r).members.entries.find? (·.2.isNone) with
  | some e =>
    simp only [hpending] at h
    cases h
  | none =>
    simp only [hpending] at h
    obtain ⟨⟩ := h
    have hinst : (s.setInst r { s.inst r with initializing := false }).inst r =
        { s.inst r with initializing := false } := by
      rw [Store.inst_setInst, if_pos rfl]
    refine ⟨⟨hfinished.made, ?_, ?_⟩, ?_, hfinished.ended⟩
    · rw [hinst]
      exact hr.class_eq
    · rw [hinst]
      exact hr.names_eq
    · rw [hinst]
      intro e he
      have hsome := List.find?_eq_none.mp hpending e he
      simpa [Option.isSome_iff_ne_none] using hsome

/-- **What a construction answers is ready.** -/
theorem Evaluator.Tidy.ready_of_construct {parts : Evaluator} (hp : parts.Tidy) {cls : Ref .cls}
    {args : List Value} {m m' : Machine} {v : Value}
    (h : parts.construct cls args m = .ok v m') :
    v = .inst ⟨m.world.store.instances.size⟩ ∧
      m'.world.store.Ready ⟨m.world.store.instances.size⟩ cls
        (m.world.store.flattenedMembers cls).keys := by
  obtain ⟨hv, s, hcourse, hfinish⟩ := hp.exists_of_construct h
  have hshape := hcourse.later.shaped (StoreM.newInstance_shaped cls m.world.store)
  exact ⟨hv, StoreM.ready_of_finishInstance hshape hfinish⟩

/-! ### Reading -/

/-- A member that has a value is found before anything that the class has. -/
lemma StoreM.instanceAttribute?_of_member {s : Store} {r : Ref .inst} {x : String} {v : Value}
    (h : (s.inst r).members.find? x = some (some v)) :
    instanceAttribute? r x s = .ok (some v) s := by
  have hget : (get : StoreM Store) s = .ok s s := rfl
  refine (EStateM.bind_of_ok hget).trans ?_
  rw [h]
  rfl

/-- A member of an instance that is ready has a value, and reading it answers that. -/
lemma Store.Ready.getAttribute {s : Store} {r : Ref .inst} {cls : Ref .cls} {names : List String}
    (hr : s.Ready r cls names) {x : String} (hx : x ∈ names) :
    ∃ v, (s.inst r).members.find? x = some (some v) ∧
      StoreM.getAttribute (.inst r) x s = .ok v s := by
  rw [← hr.names_eq] at hx
  obtain ⟨o, ho⟩ := Option.isSome_iff_exists.mp ((OrderedMap.contains_iff _ x).mpr hx)
  obtain ⟨v, rfl⟩ := Option.isSome_iff_exists.mp (hr.full _ (OrderedMap.mem_entries_of_find? ho))
  refine ⟨v, ho, ?_⟩
  have hfound : StoreM.attribute? (.inst r) x s = .ok (some v) s :=
    StoreM.instanceAttribute?_of_member ho
  exact EStateM.bind_of_ok hfound

/-- To read a member in a script does not fail, if what stands before the dot does not. -/
lemma Evaluator.evalExpr_attr_of_ready {parts : Evaluator} {load : Loader} {scope : Ref .scope}
    {e : Expr} {x : String} {m m' : Machine} {r : Ref .inst} {cls : Ref .cls}
    {names : List String} (he : parts.expr scope e m = .ok (.inst r) m')
    (hr : m'.world.store.Ready r cls names) (hx : x ∈ names) :
    ∃ v, parts.evalExpr load scope (.attr e x) m = .ok v m' := by
  obtain ⟨v, _, hread⟩ := hr.getAttribute hx
  refine ⟨v, (EStateM.bind_of_ok he).trans ?_⟩
  rw [Eval.onStore_eq, hread]

/-! ### The law of construction -/

/-- **Construction delivers only instances that are ready, and they stay so.** If the call of a
class answers a value, that is a new instance of the class. Its members are the names that the
classes of its line declared when the construction began; none of them is pending, and the
construction has ended. It is so in every later phase: whatever is evaluated in whatever state with
whatever outcome, and however hosts go on. And to read a member of an instance that is ready answers
a value. -/
theorem Engine.constructed_instances_are_ready :
    (∀ host rounds depth cls args m m' v,
      (Evaluator.ofDepth (Evaluator.load host) rounds depth).apply (.cls cls) args m = .ok v m' →
        ∃ r names, v = .inst r ∧ r.index = m.world.store.instances.size ∧
          (∀ x, x ∈ names ↔ m.world.store.Declares cls x) ∧
          m'.world.store.Ready r cls names) ∧
    (∀ φ ψ : Phase, φ.Later ψ → ∀ r cls names,
      φ.store.Ready r cls names → ψ.store.Ready r cls names) ∧
    (∀ host rounds depth,
      (Evaluator.ofDepth (Evaluator.load host) rounds depth).Proceeds host) ∧
    (∀ p q : Engine, p.Leads q → Phase.Later ⟨p.store, []⟩ ⟨q.store, []⟩) ∧
    (∀ (s : Store) r cls names x, s.Ready r cls names → x ∈ names →
      ∃ v, (s.inst r).members.find? x = some (some v) ∧
        StoreM.getAttribute (.inst r) x s = .ok v s) ∧
    ∀ (parts : Evaluator) load scope e x m m' r cls names,
      parts.expr scope e m = .ok (.inst r) m' → m'.world.store.Ready r cls names → x ∈ names →
        ∃ v, parts.evalExpr load scope (.attr e x) m = .ok v m' := by
  refine ⟨?_, fun φ ψ h r cls names hr => h.ready hr, Evaluator.ofDepth_proceeds,
    fun p q h => h.later, fun s r cls names x hr hx => hr.getAttribute hx, ?_⟩
  · intro host rounds depth cls args m m' v h
    obtain ⟨hv, hready⟩ := (Evaluator.ofDepth_tidy host rounds depth).ready_of_construct h
    exact ⟨_, _, hv, rfl, fun x => Store.mem_keys_flattenedMembers, hready⟩
  · intro parts load scope e x m m' r cls names he hr hx
    exact Evaluator.evalExpr_attr_of_ready he hr hx

/-- A class inherits a member that is pending until `__init__` gives it a value. The new instance
has the members of both classes, and when `__init__` is called on it once more, it is as ready as
before. -/
theorem Engine.instance_ready_after_second_init :
    let host : Host := ⟨.empty ⟨[]⟩, fun _ _ => .syntaxError "", Text.line?⟩
    let start := Engine.initial.newSession false .standard none
    let first := (start.turn 0 (Eval.openModule host "")).2
    let init : FunctionLiteral :=
      ⟨some "__init__", ["v"], [.mk 4 (.assign (.attr (.name "this") "x") (.name "v"))]⟩
    let program : Node := .program ⟨[
      .mk 1 (.classDef "A" none [.mk 1 (.member "x" none false false)]),
      .mk 2 (.classDef "B" (some (.name "A")) [
        .mk 3 (.member "y" (some (.literal (.int 1))) true false),
        .mk 4 (.method init false)])]⟩
    let second := (first.turn 0 (Eval.evaluate host ⟨6, 1⟩ program ⟨0⟩)).2
    let parts := Evaluator.ofDepth (Evaluator.load host) 1 6
    let m := second.machine 0
    let m' := (parts.apply (.cls ⟨2⟩) [.int 5]).after m
    let m'' := (parts.callMethod (.inst ⟨0⟩) ⟨0⟩ [.int 7]).after m'
    m'.world.store.Ready ⟨0⟩ ⟨2⟩ ["x", "y"] ∧ m''.world.store.Ready ⟨0⟩ ⟨2⟩ ["x", "y"] ∧
      ∃ v, StoreM.getAttribute (.inst ⟨0⟩) "x" m''.world.store = .ok v m''.world.store := by
  intro host start first init program second parts m m' m''
  have hanswers : (parts.apply (.cls ⟨2⟩) [.int 5]).answers m = true := by decide +kernel
  have hnew : m.world.store.instances.size = 0 := by decide +kernel
  have hnames : (m'.world.store.inst ⟨0⟩).members.keys = ["x", "y"] := by decide +kernel
  have hm'' : m'' = (parts.callMethod (.inst ⟨0⟩) ⟨0⟩ [.int 7]).after m' := rfl
  obtain ⟨v, m₁, happly⟩ := EStateM.exists_of_answers hanswers
  have hm' : m' = m₁ := EStateM.after_of_ok happly
  -- what the states are is of no importance from here on
  clear_value m'' m' m
  obtain ⟨hconstruct, hlater, hproceeds, -, hread, -⟩ := Engine.constructed_instances_are_ready
  obtain ⟨r, names, -, hr, -, hready⟩ := hconstruct _ _ _ _ _ _ _ _ happly
  obtain rfl : r = ⟨0⟩ := congrArg Ref.mk (hr.trans hnew)
  rw [← hm'] at hready
  obtain rfl : names = ["x", "y"] := hready.names_eq.symm.trans hnames
  have hagain : m''.world.store.Ready ⟨0⟩ ⟨2⟩ ["x", "y"] := by
    rw [hm'']
    exact hlater _ _ ((hproceeds host 1 6).method _ _ _ [] m') _ _ _ hready
  obtain ⟨w, -, hw⟩ := hread _ _ _ _ "x" hagain List.mem_cons_self
  exact ⟨hready, hagain, w, hw⟩

end Wei
