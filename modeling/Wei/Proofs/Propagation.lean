import Wei.Proofs.Congruence

/-!
A fault ends everything around it and changes nothing on its way. If one of the parts that a
construct evaluates ends in a fault, the construct ends in that same fault, and leaves the world as
the part left it: only the call stack, the current module and the report are put in order. So from
the moment a fault first arises to the moment the host is answered, nothing happens that a script
could observe.

Which parts a construct evaluates, and in which states, is read off the construct itself: those that
make a difference to what it comes to. In the same way it is seen that a construct goes on from
where its parts end: it leaves a store that extends what each of them left.
-/

namespace Wei

/-! ### Parts of a construct -/

/-- What an evaluator can be asked to evaluate. -/
inductive Task where
  | expr (scope : Ref .scope) (e : Expr)
  | stmt (scope : Ref .scope) (s : Stmt)
  | walk (v : Value)

/-- What a task answers. -/
@[reducible] def Task.Answer : Task → Type
  | .expr _ _ => Value
  | .stmt _ _ => Value
  | .walk _ => Iteration

namespace Evaluator

/-- Evaluates a task. -/
def run (ev : Evaluator) : (t : Task) → Eval t.Answer
  | .expr scope e => ev.expr scope e
  | .stmt scope s => ev.stmt scope s
  | .walk v => ev.walk v

/-- The two evaluators come to the same, but perhaps for one task in one state. -/
def AgreesBut (t : Task) (m : Machine) (p q : Evaluator) : Prop :=
  ∀ t' m', (t', m') ≠ (t, m) → p.run t' m' = q.run t' m'

/-- A construct, started in `m`, evaluates the part `t` in the state `m₀`: what it comes to hangs
on what the part comes to there. -/
def Evaluates {α : Type} (parts : Evaluator) (construct : Evaluator → Eval α) (m : Machine)
    (t : Task) (m₀ : Machine) : Prop :=
  ∃ other, AgreesBut t m₀ parts other ∧ construct other m ≠ construct parts m

open Classical in
/-- The evaluator that gives up over one task in one state. -/
noncomputable def givingUp (t : Task) (m : Machine) (parts : Evaluator) : Evaluator where
  expr scope e m' :=
    if (.expr scope e, m') = (t, m) then .error .unfinished m else parts.expr scope e m'
  stmt scope s m' :=
    if (.stmt scope s, m') = (t, m) then .error .unfinished m else parts.stmt scope s m'
  walk v m' := if (.walk v, m') = (t, m) then .error .unfinished m else parts.walk v m'

lemma agreesBut_givingUp (t : Task) (m : Machine) (parts : Evaluator) :
    AgreesBut t m parts (parts.givingUp t m) := by
  intro t' m' h
  cases t' <;> exact (if_neg h).symm

/-- A construct that comes to nothing once one part does evaluates that part. -/
lemma evaluates_of_unfinished {α : Type} {parts : Evaluator} {construct : Evaluator → Eval α}
    {m m₀ : Machine} {t : Task}
    (h : ∃ m', construct (parts.givingUp t m₀) m = .error .unfinished m')
    (hends : ∀ m', construct parts m ≠ .error .unfinished m') :
    parts.Evaluates construct m t m₀ := by
  obtain ⟨m', h⟩ := h
  refine ⟨_, agreesBut_givingUp t m₀ parts, ?_⟩
  rw [h]
  exact (hends m').symm

lemma evaluates_of_givingUp {α : Type} {parts : Evaluator} {construct : Evaluator → Eval α}
    {m m₀ m₁ : Machine} {t : Task} {f : Fault}
    (h : ∃ m', construct (parts.givingUp t m₀) m = .error .unfinished m')
    (hf : construct parts m = .error (.fault f) m₁) : parts.Evaluates construct m t m₀ := by
  refine evaluates_of_unfinished h fun m' => ?_
  rw [hf]
  exact nofun

end Evaluator

/-! ### The way up -/

/-- The two states differ in the current module, the call stack and the report only. -/
def Machine.Beside (m m' : Machine) : Prop :=
  ∃ module stack report, m' = { m with module := module, stack := stack, report := report }

namespace Machine.Beside

variable {m m' : Machine}

lemma refl (m : Machine) : m.Beside m := ⟨_, _, _, rfl⟩

lemma withModule (h : m.Beside m') (module : Option (Ref .module)) :
    m.Beside { m' with module := module } := by
  obtain ⟨_, _, _, rfl⟩ := h
  exact ⟨_, _, _, rfl⟩

lemma withStack (h : m.Beside m') (stack : CallStack) : m.Beside { m' with stack := stack } := by
  obtain ⟨_, _, _, rfl⟩ := h
  exact ⟨_, _, _, rfl⟩

lemma withReport (h : m.Beside m') (report : Report) :
    m.Beside { m' with report := report } := by
  obtain ⟨_, _, _, rfl⟩ := h
  exact ⟨_, _, _, rfl⟩

lemma trans {m'' : Machine} (h : m.Beside m') (h' : m'.Beside m'') : m.Beside m'' := by
  obtain ⟨_, _, _, rfl⟩ := h
  obtain ⟨_, _, _, rfl⟩ := h'
  exact ⟨_, _, _, rfl⟩

end Machine.Beside

/-- The fault `f`, which a part left in the state `m₁`, has come up to here. -/
def Fault.CameUp (f : Fault) (m₁ : Machine) {α : Type} (r : EStateM.Result Exit Machine α) : Prop :=
  ∃ m₂, r = .error (.fault f) m₂ ∧ m₁.Beside m₂

/-- Two evaluations come to the same, unless the fault comes up through the first. -/
def Eval.SameUnless (f : Fault) (m₁ : Machine) {α : Type} (x y : Eval α) : Prop :=
  ∀ m, x m = y m ∨ f.CameUp m₁ (x m)

namespace Eval.SameUnless

variable {f : Fault} {m₁ : Machine} {α β : Type} {x y : Eval α}

lemma refl (x : Eval α) : SameUnless f m₁ x x := fun _ => .inl rfl

lemma bind {g h : α → Eval β} (hx : SameUnless f m₁ x y) (hg : ∀ a, SameUnless f m₁ (g a) (h a)) :
    SameUnless f m₁ (x >>= g) (y >>= h) := by
  intro m
  show EStateM.bind x g m = EStateM.bind y h m ∨ f.CameUp m₁ (EStateM.bind x g m)
  unfold EStateM.bind
  rcases hx m with e | ⟨m₂, e, hm₂⟩
  · rw [← e]
    cases x m with
    | ok a m' => exact hg a m'
    | error e m' => exact .inl rfl
  · rw [e]
    exact .inr ⟨m₂, rfl, hm₂⟩

lemma recording (hx : SameUnless f m₁ x y) :
    SameUnless f m₁ (Eval.recording x) (Eval.recording y) := by
  intro m
  unfold Eval.recording
  rcases hx m with e | ⟨m₂, e, hm₂⟩
  · exact .inl (by rw [e])
  · rw [e]
    exact .inr ⟨_, rfl, hm₂.withReport _⟩

lemma withFrame (hx : SameUnless f m₁ x y) (path function : String) :
    SameUnless f m₁ (Eval.withFrame path function x) (Eval.withFrame path function y) := by
  intro m
  unfold Eval.withFrame
  rcases hx { m with stack := m.stack.push path function } with e | ⟨m₂, e, hm₂⟩
  · exact .inl (by rw [e])
  · rw [e]
    exact .inr ⟨_, rfl, hm₂.withStack _⟩

lemma withModule (hx : SameUnless f m₁ x y) (r : Ref .module) :
    SameUnless f m₁ (Eval.withModule r x) (Eval.withModule r y) := by
  intro m
  unfold Eval.withModule
  rcases hx { m with module := some r } with e | ⟨m₂, e, hm₂⟩
  · exact .inl (by rw [e])
  · rw [e]
    exact .inr ⟨_, rfl, hm₂.withModule _⟩

/-- What is put around the two lets faults through. -/
lemma around {around : Eval α → Eval β} (hx : SameUnless f m₁ x y)
    (same : ∀ m, x m = y m → around x m = around y m)
    (through : ∀ m m₂, x m = .error (.fault f) m₂ → around x m = .error (.fault f) m₂) :
    SameUnless f m₁ (around x) (around y) := by
  intro m
  rcases hx m with e | ⟨m₂, e, hm₂⟩
  · exact .inl (same m e)
  · exact .inr ⟨m₂, through m m₂ e, hm₂⟩

lemma takingReturn {x y : Eval Value} (hx : SameUnless f m₁ x y) :
    SameUnless f m₁ (Eval.takingReturn x) (Eval.takingReturn y) := by
  refine hx.around (fun m e => ?_) fun m m₂ e => ?_
  all_goals
    unfold Eval.takingReturn
    rw [e]

lemma outsideLoops (hx : SameUnless f m₁ x y) :
    SameUnless f m₁ (Eval.outsideLoops x) (Eval.outsideLoops y) := by
  refine hx.around (fun m e => ?_) fun m m₂ e => ?_
  all_goals
    unfold Eval.outsideLoops
    rw [e]

lemma loopRound (hx : SameUnless f m₁ x y) :
    SameUnless f m₁ (Eval.loopRound x) (Eval.loopRound y) := by
  refine hx.around (fun m e => ?_) fun m m₂ e => ?_
  all_goals
    unfold Eval.loopRound
    rw [e]

lemma boundingDepth (hx : SameUnless f m₁ x y) :
    SameUnless f m₁ (Eval.boundingDepth x) (Eval.boundingDepth y) := by
  refine hx.around (fun m e => ?_) fun m m₂ e => ?_
  all_goals
    unfold Eval.boundingDepth
    rw [e]

lemma atBottom (hx : SameUnless f m₁ x y) :
    SameUnless f m₁ (Eval.atBottom x) (Eval.atBottom y) := by
  intro m
  unfold Eval.atBottom
  split
  · exact hx.withFrame m.modulePath "<module>" m
  · exact hx m

end Eval.SameUnless

/-- Coming to the same unless a certain fault comes up is a congruence: nothing that a construct is
made of takes a fault. -/
def Congruence.unlessFault (f : Fault) (m₁ : Machine) : Congruence where
  Rel _ _ x y := x.SameUnless f m₁ y
  own {_ _ x} _ := .refl x
  loading {_ _ x} _ := .refl x
  exit _ := .refl _
  bind := .bind
  widen := id
  loosen := id
  recording := .recording
  withFrame path function hx := hx.withFrame path function
  withModule r hx := hx.withModule r
  takingReturn := .takingReturn
  outsideLoops := .outsideLoops
  loopRound := .loopRound

/-! ### Constructs and whole evaluations -/

variable {host : Host} {rounds : Nat} {parts other : Evaluator} {t : Task} {m₀ m₁ : Machine}
  {f : Fault}

/-- Two evaluators that agree but for a part that ends in a fault come to the same unless that fault
comes up. -/
lemma Evaluator.AgreesBut.relates (h : AgreesBut t m₀ parts other)
    (hf : parts.run t m₀ = .error (.fault f) m₁) :
    (Congruence.unlessFault f m₁).Relates parts other := by
  have key (t' : Task) : (parts.run t').SameUnless f m₁ (other.run t') := by
    intro m'
    by_cases heq : (t', m') = (t, m₀)
    · cases heq
      exact .inr ⟨m₁, hf, .refl m₁⟩
    · exact .inl (h t' m' heq)
  exact ⟨fun scope e => key (.expr scope e), fun scope s => key (.stmt scope s),
    fun v => key (.walk v)⟩

/-- What a construct that respects congruences comes to if one of its parts ends in a fault. -/
lemma Evaluator.Evaluates.cameUp {α : Type} {construct : Evaluator → Eval α} {m : Machine}
    (h : parts.Evaluates construct m t m₀) (hf : parts.run t m₀ = .error (.fault f) m₁)
    (hc : ∀ q, (Congruence.unlessFault f m₁).Relates parts q →
      (construct parts).SameUnless f m₁ (construct q)) :
    f.CameUp m₁ (construct parts m) := by
  obtain ⟨other, hagree, hne⟩ := h
  rcases hc other (hagree.relates hf) m with e | h
  · exact absurd e.symm hne
  · exact h

/-- A fault of a part of an expression, a statement or a walk. -/
lemma Evaluator.Evaluates.deepen_cameUp {t' : Task} {m : Machine}
    (h : parts.Evaluates (fun ps => (ps.deepen (load host) rounds).run t') m t m₀)
    (hf : parts.run t m₀ = .error (.fault f) m₁) :
    f.CameUp m₁ ((parts.deepen (load host) rounds).run t' m) := by
  refine h.cameUp hf fun q hq => ?_
  have hd := hq.deepen (hq.load host) rounds
  cases t' with
  | expr scope e => exact hd.expr scope e
  | stmt scope s => exact hd.stmt scope s
  | walk v => exact hd.walk v

/-- A fault of a part of what a host has evaluated. -/
lemma Evaluator.Evaluates.evaluateOver_cameUp {n : Node} {scope : Ref .scope} {m : Machine}
    (h : parts.Evaluates (fun ps => Eval.evaluateOver ps n scope) m t m₀)
    (hf : parts.run t m₀ = .error (.fault f) m₁) :
    f.CameUp m₁ (Eval.evaluateOver parts n scope m) :=
  h.cameUp hf fun _ hq => .bind (.refl _) fun _ => .atBottom (.recording (.boundingDepth
    (.takingReturn (.outsideLoops (hq.node scope n)))))

/-- The evaluation of a task at some depth comes to evaluate another one, as a part of a part and
so on. -/
inductive Evaluator.Reaches (load : Loader) (rounds : Nat) :
    Nat → Task → Machine → Nat → Task → Machine → Prop
  | self (depth : Nat) (t : Task) (m : Machine) : Reaches load rounds depth t m depth t m
  | part {depth depth' : Nat} {t t' t'' : Task} {m m' m'' : Machine} :
    (ofDepth load rounds depth).Evaluates (fun ps => (ps.deepen load rounds).run t) m t' m' →
      Reaches load rounds depth t' m' depth' t'' m'' →
      Reaches load rounds (depth + 1) t m depth' t'' m''

/-- A fault comes up through all the constructs around it. -/
lemma Evaluator.Reaches.cameUp {depth depth' : Nat} {t' : Task} {m m' : Machine}
    (h : Reaches (load host) rounds depth t m depth' t' m')
    (hf : (ofDepth (load host) rounds depth').run t' m' = .error (.fault f) m₁) :
    f.CameUp m₁ ((ofDepth (load host) rounds depth).run t m) := by
  induction h with
  | self => exact ⟨m₁, hf, .refl m₁⟩
  | part hpart _ ih =>
    obtain ⟨m₂, e, hm₂⟩ := ih hf
    obtain ⟨m₃, e', hm₃⟩ := hpart.deepen_cameUp e
    exact ⟨m₃, e', hm₂.trans hm₃⟩

/-! ### What comes after a part -/

/-- Two evaluations come to the same, unless the first goes on from the store `s₁`. In any case it
extends the store. -/
structure Eval.SameUnlessPast (s₁ : Store) {α : Type} (x y : Eval α) : Prop where
  changes : x.Changes Store.Extends
  same (m : Machine) : x m = y m ∨ s₁.Extends (x.after m).world.store

namespace Eval.SameUnlessPast

variable {s₁ : Store} {α β : Type} {x y : Eval α}

lemma refl {x : Eval α} (hx : x.Changes Store.Extends) : SameUnlessPast s₁ x x :=
  ⟨hx, fun _ => .inl rfl⟩

lemma own (hx : x.Own) : SameUnlessPast s₁ x x := by
  refine .refl ?_
  cases hx with
  | pure a => exact .pure a
  | look => exact .aside fun _ => rfl
  | store => exact .store
  | onStore hy => exact .onStore hy
  | builtin b args => exact .builtin b args
  | askStore y => exact .askStore y
  | atLine line => exact .atLine line

lemma loading (hx : x.Loading) : SameUnlessPast s₁ x x := by
  refine .refl (.aside fun m => ?_)
  cases hx <;> rfl

lemma bind {g h : α → Eval β} (hx : SameUnlessPast s₁ x y)
    (hg : ∀ a, SameUnlessPast s₁ (g a) (h a)) : SameUnlessPast s₁ (x >>= g) (y >>= h) := by
  refine ⟨.bind hx.changes fun a => (hg a).changes, fun m => ?_⟩
  rcases hx.same m with heq | hpast
  · cases hm : x m with
    | ok a m' =>
      rw [EStateM.bind_of_ok hm, EStateM.bind_of_ok (heq ▸ hm), EStateM.after_bind_of_ok hm]
      exact (hg a).same m'
    | error e m' =>
      rw [EStateM.bind_of_error hm, EStateM.bind_of_error (heq ▸ hm)]
      exact .inl rfl
  · right
    rcases EStateM.after_bind_cases x g m with hm | ⟨a, _, hm⟩
    · rw [hm]
      exact hpast
    · rw [hm]
      exact hpast.trans ((hg a).changes _)

/-- Something is put around the two that leaves the world as they do. -/
lemma around {w : Eval α → Eval β} (hx : SameUnlessPast s₁ x y) (start : Machine → Machine)
    (hchanges : (w x).Changes Store.Extends)
    (same : ∀ m, x (start m) = y (start m) → w x m = w y m)
    (world : ∀ m, ((w x).after m).world = (x.after (start m)).world) :
    SameUnlessPast s₁ (w x) (w y) := by
  refine ⟨hchanges, fun m => ?_⟩
  rw [world m]
  exact (hx.same (start m)).imp_left (same m)

lemma recording (hx : SameUnlessPast s₁ x y) :
    SameUnlessPast s₁ (Eval.recording x) (Eval.recording y) := by
  refine hx.around id hx.changes.recording (fun m h => ?_) fun m => ?_
  · unfold Eval.recording
    rw [show x m = y m from h]
  · obtain ⟨_, h⟩ := after_recording x m
    rw [h]
    rfl

lemma outsideLoops (hx : SameUnlessPast s₁ x y) :
    SameUnlessPast s₁ (Eval.outsideLoops x) (Eval.outsideLoops y) := by
  refine hx.around id hx.changes.outsideLoops (fun m h => ?_) fun m => ?_
  · unfold Eval.outsideLoops
    rw [show x m = y m from h]
  · obtain ⟨_, h⟩ := after_outsideLoops x m
    rw [h]
    rfl

lemma takingReturn {x y : Eval Value} (hx : SameUnlessPast s₁ x y) :
    SameUnlessPast s₁ (Eval.takingReturn x) (Eval.takingReturn y) := by
  refine hx.around id hx.changes.takingReturn (fun m h => ?_) fun m => ?_
  · unfold Eval.takingReturn
    rw [show x m = y m from h]
  · exact congrArg Machine.world (after_takingReturn x m)

lemma loopRound (hx : SameUnlessPast s₁ x y) :
    SameUnlessPast s₁ (Eval.loopRound x) (Eval.loopRound y) := by
  refine hx.around id hx.changes.loopRound (fun m h => ?_) fun m => ?_
  · unfold Eval.loopRound
    rw [show x m = y m from h]
  · exact congrArg Machine.world (after_loopRound x m)

lemma withFrame (hx : SameUnlessPast s₁ x y) (path function : String) :
    SameUnlessPast s₁ (Eval.withFrame path function x) (Eval.withFrame path function y) := by
  refine hx.around (fun m => { m with stack := m.stack.push path function })
    (hx.changes.withFrame path function) (fun m h => ?_) fun m => ?_
  · unfold Eval.withFrame
    rw [h]
  · rw [after_withFrame]

lemma withModule (hx : SameUnlessPast s₁ x y) (r : Ref .module) :
    SameUnlessPast s₁ (Eval.withModule r x) (Eval.withModule r y) := by
  refine hx.around (fun m => { m with module := some r }) (hx.changes.withModule r)
    (fun m h => ?_) fun m => ?_
  · unfold Eval.withModule
    rw [h]
  · rw [after_withModule]

end Eval.SameUnlessPast

/-- Coming to the same unless one goes on from a store is a congruence: nothing that a construct is
made of takes back what has been made. -/
def Congruence.unlessPast (s₁ : Store) : Congruence where
  Rel _ _ x y := x.SameUnlessPast s₁ y
  own := .own
  loading := .loading
  exit _ := .refl (.throw _)
  bind := .bind
  widen := id
  loosen := id
  recording := .recording
  withFrame path function hx := hx.withFrame path function
  withModule r hx := hx.withModule r
  takingReturn := .takingReturn
  outsideLoops := .outsideLoops
  loopRound := .loopRound

namespace Evaluator

/-- The evaluator extends the store, whatever it is asked to evaluate. -/
def Extending (parts : Evaluator) : Prop := ∀ t : Task, (parts.run t).Changes Store.Extends

lemma ofDepth_extending (host : Host) (rounds depth : Nat) :
    (ofDepth (load host) rounds depth).Extending := by
  have h := (Congruence.unlessPast default).relates_ofDepth host rounds depth
  intro t
  cases t with
  | expr scope e => exact (h.expr scope e).changes
  | stmt scope s => exact (h.stmt scope s).changes
  | walk v => exact (h.walk v).changes

/-- Evaluators that agree but for a part come to the same unless one goes on from what the part
left. -/
lemma AgreesBut.relates_past (h : AgreesBut t m₀ parts other) (hparts : parts.Extending) :
    (Congruence.unlessPast ((parts.run t).after m₀).world.store).Relates parts other := by
  have key (t' : Task) :
      (parts.run t').SameUnlessPast ((parts.run t).after m₀).world.store (other.run t') := by
    refine ⟨hparts t', fun m' => ?_⟩
    by_cases heq : (t', m') = (t, m₀)
    · cases heq
      exact .inr (.refl _)
    · exact .inl (h t' m' heq)
  exact ⟨fun scope e => key (.expr scope e), fun scope s => key (.stmt scope s),
    fun v => key (.walk v)⟩

/-- **A construct goes on from where a part ends.** -/
lemma Evaluates.extends_after {α : Type} {construct : Evaluator → Eval α} {m : Machine}
    (h : parts.Evaluates construct m t m₀) (hparts : parts.Extending)
    (hc : ∀ s₁ q, (Congruence.unlessPast s₁).Relates parts q →
      (construct parts).SameUnlessPast s₁ (construct q)) :
    ((parts.run t).after m₀).world.store.Extends ((construct parts).after m).world.store := by
  obtain ⟨other, hagree, hne⟩ := h
  rcases (hc _ other (hagree.relates_past hparts)).same m with heq | hpast
  · exact absurd heq.symm hne
  · exact hpast

/-- What is evaluated inside of a task has been evaluated when the task ends. -/
lemma Reaches.extends_after {depth depth' : Nat} {t' : Task} {m m' : Machine}
    (h : Reaches (load host) rounds depth t m depth' t' m') :
    (((ofDepth (load host) rounds depth').run t').after m').world.store.Extends
      (((ofDepth (load host) rounds depth).run t).after m).world.store := by
  induction h with
  | self => exact .refl _
  | @part depth _ t _ _ _ _ _ hpart _ ih =>
    refine ih.trans (hpart.extends_after (ofDepth_extending host rounds depth) fun s₁ q hq => ?_)
    have hd := hq.deepen (hq.load host) rounds
    cases t with
    | expr scope e => exact hd.expr scope e
    | stmt scope s => exact hd.stmt scope s
    | walk v => exact hd.walk v

end Evaluator

/-- **A fault ends everything around it and changes nothing on its way.** A construct one of whose
parts ends in a fault ends in that fault and leaves the world as the part left it. And if anything
that comes to be evaluated for a host ends in a fault, at whatever depth, the host is answered that
fault, in the world as it was when the fault arose. -/
theorem Evaluator.fault_ends_everything (host : Host) :
    (∀ (rounds : Nat) (parts : Evaluator) (t t' : Task) (m m₀ m₁ : Machine) (f : Fault),
      parts.Evaluates (fun ps => (ps.deepen (load host) rounds).run t) m t' m₀ →
      parts.run t' m₀ = .error (.fault f) m₁ →
      ∃ m₂, (parts.deepen (load host) rounds).run t m = .error (.fault f) m₂ ∧ m₁.Beside m₂) ∧
    ∀ (limits : Limits) (n : Node) (scope : Ref .scope) (depth : Nat) (t t' : Task)
      (m m' m₀ m₁ : Machine) (f : Fault),
      (ofDepth (load host) limits.rounds limits.depth).Evaluates
        (fun ps => Eval.evaluateOver ps n scope) m t m' →
      Reaches (load host) limits.rounds limits.depth t m' depth t' m₀ →
      (ofDepth (load host) limits.rounds depth).run t' m₀ = .error (.fault f) m₁ →
      ∃ m₂, Eval.evaluate host limits n scope m = .error (.fault f) m₂ ∧ m₁.Beside m₂ := by
  refine ⟨fun rounds parts t t' m m₀ m₁ f h hf => h.deepen_cameUp hf, ?_⟩
  intro limits n scope depth t t' m m' m₀ m₁ f hpart hreach hf
  obtain ⟨m₂, e, hm₂⟩ := hreach.cameUp hf
  obtain ⟨m₃, e', hm₃⟩ := hpart.evaluateOver_cameUp e
  exact ⟨m₃, e', hm₂.trans hm₃⟩

section NegatedText

/-- The tree of `-"a"`. -/
private def negatedText : Expr := .unary .negate (.literal (.str "a"))

/-- The tree of `[[], -"a"]`. -/
private def listOfNegated : Expr := .list [.list [], negatedText]

/-- The state in which the first evaluation of a host comes to its tree. -/
private def atFirst : Machine :=
  { (default : Machine) with stack := ⟨[⟨"", "<module>", 0⟩]⟩, report := .blank false }

/-- The state when one empty list has been made. -/
private def afterList : Machine :=
  { atFirst with world := ⟨{ (default : Store) with lists := ⟨#[[]]⟩ }, default, ""⟩ }

variable (host : Host)

private lemma evaluates_listOfNegated :
    (Evaluator.ofDepth (Evaluator.load host) 1 3).Evaluates
      (fun ps => Eval.evaluateOver ps (.expr listOfNegated) ⟨0⟩) default
      (.expr ⟨0⟩ listOfNegated) atFirst := by
  refine Evaluator.evaluates_of_givingUp ⟨{ atFirst with stack := ⟨[]⟩ }, ?_⟩ rfl
  have h : ((Evaluator.ofDepth (Evaluator.load host) 1 3).givingUp (.expr ⟨0⟩ listOfNegated)
      atFirst).expr ⟨0⟩ listOfNegated atFirst = .error .unfinished atFirst := if_pos rfl
  generalize Evaluator.givingUp _ _ _ = q at h ⊢
  have hnode : Eval.evaluateOver q (.expr listOfNegated) ⟨0⟩ default =
      Eval.withFrame "" "<module>" (Eval.recording (Eval.boundingDepth (Eval.takingReturn
        (Eval.outsideLoops (q.expr ⟨0⟩ listOfNegated))))) { atFirst with stack := ⟨[]⟩ } := rfl
  rw [hnode]
  unfold Eval.withFrame Eval.recording Eval.boundingDepth Eval.takingReturn Eval.outsideLoops
  have hpush : { ({ atFirst with stack := ⟨[]⟩ } : Machine) with
      stack := CallStack.push ⟨[]⟩ "" "<module>" } = atFirst := rfl
  simp only [hpush, h]
  rfl

private lemma evaluates_negatedText :
    (Evaluator.ofDepth (Evaluator.load host) 1 2).Evaluates
      (fun ps => (ps.deepen (Evaluator.load host) 1).run (.expr ⟨0⟩ listOfNegated))
      atFirst (.expr ⟨0⟩ negatedText) afterList := by
  refine Evaluator.evaluates_of_givingUp ⟨afterList, ?_⟩ rfl
  have hlist : ((Evaluator.ofDepth (Evaluator.load host) 1 2).givingUp (.expr ⟨0⟩ negatedText)
      afterList).expr ⟨0⟩ (.list []) atFirst = .ok (.list ⟨0⟩) afterList :=
    if_neg (by simp [negatedText])
  have htext : ((Evaluator.ofDepth (Evaluator.load host) 1 2).givingUp (.expr ⟨0⟩ negatedText)
      afterList).expr ⟨0⟩ negatedText afterList = .error .unfinished afterList := if_pos rfl
  simp only [Evaluator.run, Evaluator.deepen, Evaluator.evalExpr, listOfNegated, Evaluator.exprs,
    bind, EStateM.bind, hlist, htext]

end NegatedText

/-- In `[[], -"a"]` a string is negated: the whole ends in the fault of that part, and the list that
was made before it is still there. -/
theorem Evaluator.fault_ends_list :
    let host : Host := ⟨.empty ⟨[]⟩, fun _ _ => .crash .malformedTree, Text.line?⟩
    (∃ m₂, (ofDepth (load host) 1 3).run (.expr ⟨0⟩ listOfNegated) atFirst =
      .error (.fault (.unsupportedOperand "-" "str")) m₂ ∧ afterList.Beside m₂) ∧
    ∃ m₂, Eval.evaluate host ⟨3, 1⟩ (.expr listOfNegated) ⟨0⟩ default =
      .error (.fault (.unsupportedOperand "-" "str")) m₂ ∧ afterList.Beside m₂ := by
  intro host
  have hf : (ofDepth (load host) 1 2).run (.expr ⟨0⟩ negatedText) afterList =
      .error (.fault (.unsupportedOperand "-" "str")) afterList := rfl
  have hpart := evaluates_negatedText host
  obtain ⟨local', global⟩ := fault_ends_everything host
  exact ⟨local' _ _ _ _ _ _ _ _ hpart hf,
    global ⟨3, 1⟩ _ _ 2 _ _ _ _ _ _ _ (evaluates_listOfNegated host) (.part hpart (.self ..)) hf⟩

end Wei
