import Mathlib.Order.Defs.Unbundled
import Mathlib.Tactic.Lemma
import Wei.Engine

/-!
The state in which an operation ends, whether it answers a value or exits. Laws about what is kept,
or about what can have happened, whatever the outcome is, speak of this state.
-/

namespace EStateM

variable {ε σ α β : Type}

/-- The state in which an operation ends, however it ends. -/
def after (x : EStateM ε σ α) (s : σ) : σ :=
  match x s with
  | .ok _ s' => s'
  | .error _ s' => s'

variable {x : EStateM ε σ α} {f : α → EStateM ε σ β} {s s' : σ}

lemma after_of_ok {a : α} (h : x s = .ok a s') : x.after s = s' := by
  rw [after, h]

lemma after_of_error {e : ε} (h : x s = .error e s') : x.after s = s' := by
  rw [after, h]

/-- Does the operation answer a value? -/
def answers (x : EStateM ε σ α) (s : σ) : Bool :=
  match x s with
  | .ok _ _ => true
  | .error _ _ => false

lemma exists_of_answers (h : x.answers s = true) : ∃ a s', x s = .ok a s' := by
  unfold answers at h
  split at h
  · next a s' hx => exact ⟨a, s', hx⟩
  · cases h

lemma ne_error_of_answers (h : x.answers s = true) (e : ε) (s' : σ) : x s ≠ .error e s' := by
  intro hx
  rw [answers, hx] at h
  cases h

/-! ### One operation after the other -/

lemma bind_of_ok {a : α} (h : x s = .ok a s') : (x >>= f) s = f a s' := by
  show EStateM.bind x f s = _
  unfold EStateM.bind
  rw [h]

lemma bind_of_error {e : ε} (h : x s = .error e s') : (x >>= f) s = .error e s' := by
  show EStateM.bind x f s = _
  unfold EStateM.bind
  rw [h]

lemma after_bind_of_ok {a : α} (h : x s = .ok a s') : (x >>= f).after s = (f a).after s' := by
  rw [after, bind_of_ok h, after]

/-- The second operation starts where the first ends, if that answers a value. -/
lemma after_bind_cases (x : EStateM ε σ α) (f : α → EStateM ε σ β) (s : σ) :
    (x >>= f).after s = x.after s ∨
      ∃ a, x s = .ok a (x.after s) ∧ (x >>= f).after s = (f a).after (x.after s) := by
  cases h : x s with
  | ok a s' =>
    rw [after_of_ok h]
    exact .inr ⟨a, rfl, after_bind_of_ok h⟩
  | error e s' =>
    rw [after_of_error h]
    exact .inl (after_of_error (bind_of_error h))

/-- An answer comes from both operations. -/
lemma exists_of_bind_eq_ok {b : β} (h : (x >>= f) s = .ok b s') :
    ∃ a s₁, x s = .ok a s₁ ∧ f a s₁ = .ok b s' := by
  cases hx : x s with
  | ok a s₁ => exact ⟨a, s₁, rfl, (bind_of_ok hx).symm.trans h⟩
  | error e s₁ => cases (bind_of_error hx).symm.trans h

/-- What both operations bring about is brought about by the one after the other. -/
lemma after_bind {R : σ → σ → Prop} [IsTrans σ R] (hx : R s (x.after s))
    (hf : ∀ a, R (x.after s) ((f a).after (x.after s))) : R s ((x >>= f).after s) := by
  rcases after_bind_cases x f s with h | ⟨a, _, h⟩
  · rw [h]
    exact hx
  · rw [h]
    exact Trans.trans hx (hf a)

/-! ### What holds of the states before and after -/

/-- From whatever state the operation starts, that in which it ends is related to it. -/
def Within (R : σ → σ → Prop) (x : EStateM ε σ α) : Prop := ∀ s, R s (x.after s)

namespace Within

variable {R : σ → σ → Prop}

lemma imp {R' : σ → σ → Prop} (hx : x.Within R) (h : ∀ s s', R s s' → R' s s') : x.Within R' :=
  fun s => h s _ (hx s)

lemma bind [IsTrans σ R] (hx : x.Within R) (hf : ∀ a, (f a).Within R) : (x >>= f).Within R :=
  fun s => after_bind (hx s) fun a => hf a _

lemma ite {c : Prop} [Decidable c] {y : EStateM ε σ α} (hx : x.Within R) (hy : y.Within R) :
    (if c then x else y).Within R := by
  split
  · exact hx
  · exact hy

variable [Std.Refl R]

lemma pure (a : α) : (Pure.pure a : EStateM ε σ α).Within R := fun s => refl s

lemma throw (e : ε) : (MonadExcept.throw e : EStateM ε σ α).Within R := fun s => refl s

lemma get : (MonadState.get : EStateM ε σ σ).Within R := fun s => refl s

end Within

end EStateM

namespace Wei

namespace Eval

variable {α β : Type}

/-! ### Evaluations inside of others -/

lemma after_withFrame (path function : String) (x : Eval α) (m : Machine) :
    (withFrame path function x).after m =
      let inside := x.after { m with stack := m.stack.push path function }
      { inside with stack := inside.stack.pop } := by
  unfold EStateM.after withFrame
  generalize x _ = r
  cases r <;> rfl

lemma after_withModule (r : Ref .module) (x : Eval α) (m : Machine) :
    (withModule r x).after m =
      { x.after { m with module := some r } with module := m.module } := by
  unfold EStateM.after withModule
  generalize x _ = r
  cases r <;> rfl

lemma after_atBottom (x : Eval α) (m : Machine) :
    (atBottom x).after m = if m.stack.frames.isEmpty then
      (withFrame m.modulePath "<module>" x).after m else x.after m := by
  unfold EStateM.after atBottom
  by_cases h : m.stack.frames.isEmpty = true
  · rw [if_pos h, if_pos h]
  · rw [if_neg h, if_neg h]

/-- Nothing but the report differs. -/
lemma after_recording (x : Eval α) (m : Machine) :
    ∃ report, (recording x).after m = { x.after m with report := report } := by
  unfold EStateM.after recording
  generalize x m = r
  rcases r with ⟨a, m'⟩ | ⟨e, m'⟩
  · exact ⟨m'.report, rfl⟩
  · cases e with
    | fault f => exact ⟨(m'.recordFault f).report, rfl⟩
    | _ => exact ⟨m'.report, rfl⟩

/-- Nothing but the report differs. -/
lemma after_outsideLoops (x : Eval α) (m : Machine) :
    ∃ report, (outsideLoops x).after m = { x.after m with report := report } := by
  unfold EStateM.after outsideLoops
  generalize x m = r
  rcases r with ⟨a, m'⟩ | ⟨e, m'⟩
  · exact ⟨m'.report, rfl⟩
  · cases e with
    | breaking => exact ⟨(m'.recordFault (.strayExit "break_value")).report, rfl⟩
    | continuing => exact ⟨(m'.recordFault (.strayExit "continue_value")).report, rfl⟩
    | _ => exact ⟨m'.report, rfl⟩

@[simp] lemma after_takingReturn (x : Eval Value) (m : Machine) :
    (takingReturn x).after m = x.after m := by
  unfold EStateM.after takingReturn
  generalize x m = r
  rcases r with ⟨a, m'⟩ | ⟨e, m'⟩
  · rfl
  · cases e <;> rfl

@[simp] lemma after_loopRound (x : Eval α) (m : Machine) : (loopRound x).after m = x.after m := by
  unfold EStateM.after loopRound
  generalize x m = r
  rcases r with ⟨a, m'⟩ | ⟨e, m'⟩
  · rfl
  · cases e <;> rfl

@[simp] lemma after_boundingDepth (x : Eval α) (m : Machine) :
    (boundingDepth x).after m = x.after m := by
  unfold EStateM.after boundingDepth
  generalize x m = r
  rcases r with ⟨a, m'⟩ | ⟨e, m'⟩
  · rfl
  · cases e <;> rfl

/-! ### Operations on the store and the world -/

/-- What the store answers is answered. -/
lemma eq_ok_of_onStore {y : StoreM α} {m m' : Machine} {a : α} (h : onStore y m = .ok a m') :
    y m.world.store = .ok a m'.world.store := by
  rw [onStore_eq] at h
  cases hy : y m.world.store with
  | ok b s =>
    rw [hy] at h
    obtain ⟨⟩ := h
    rfl
  | error f s =>
    rw [hy] at h
    cases h

lemma after_onStore (y : StoreM α) (m : Machine) :
    (onStore y).after m = { m with world := { m.world with store := y.after m.world.store } } := by
  unfold EStateM.after
  rw [onStore_eq]
  cases y m.world.store <;> rfl

/-- A new module is the next of its kind. -/
lemma onStore_newModuleAt (path : String) (m : Machine) :
    onStore (StoreM.newModuleAt path) m = .ok ⟨m.world.store.modules.size⟩
      { m with world.store := (StoreM.newModuleAt path).after m.world.store } := by
  have hmade := StoreM.newModuleAt_eq path m.world.store
  rw [onStore_eq, EStateM.after_of_ok hmade, hmade]

lemma after_onWorld (y : WorldM α) (m : Machine) :
    (onWorld y).after m = { m with world := y.after m.world } := by
  unfold EStateM.after
  rw [onWorld_eq]
  cases y m.world <;> rfl

@[simp] lemma after_askStore (y : Store → Except Fault α) (m : Machine) :
    (askStore y).after m = m := by
  unfold EStateM.after askStore
  cases y m.world.store <;> rfl

@[simp] lemma after_orCrash (y : Except Crash α) (m : Machine) : (orCrash y).after m = m := by
  cases y <;> rfl

end Eval

/-! ### What becomes of the store -/

/-- The stores of the two states are related. -/
def Machine.OnStores (R : Store → Store → Prop) (m m' : Machine) : Prop :=
  R m.world.store m'.world.store

instance {R : Store → Store → Prop} [Std.Refl R] : Std.Refl (Machine.OnStores R) :=
  ⟨fun m => refl m.world.store⟩

instance {R : Store → Store → Prop} [IsTrans Store R] : IsTrans Machine (Machine.OnStores R) :=
  ⟨fun m m' m'' h h' => IsTrans.trans (r := R) m.world.store m'.world.store m''.world.store h h'⟩

/-- The evaluation leaves a store that is related to the one that it found, whatever its outcome. -/
abbrev Eval.Changes (R : Store → Store → Prop) {α : Type} (x : Eval α) : Prop :=
  x.Within (Machine.OnStores R)

namespace Eval

variable {α β : Type}

namespace Changes

variable {R : Store → Store → Prop} {x : Eval α}

lemma onStore {y : StoreM α} (hy : y.Within R) : (Eval.onStore y).Changes R := by
  intro m
  rw [after_onStore]
  exact hy m.world.store

lemma recording (hx : x.Changes R) : (Eval.recording x).Changes R := by
  intro m
  obtain ⟨report, h⟩ := after_recording x m
  rw [h]
  exact hx m

lemma outsideLoops (hx : x.Changes R) : (Eval.outsideLoops x).Changes R := by
  intro m
  obtain ⟨report, h⟩ := after_outsideLoops x m
  rw [h]
  exact hx m

lemma takingReturn {x : Eval Value} (hx : x.Changes R) : (Eval.takingReturn x).Changes R :=
  fun m => (after_takingReturn x m).symm ▸ hx m

lemma loopRound (hx : x.Changes R) : (Eval.loopRound x).Changes R :=
  fun m => (after_loopRound x m).symm ▸ hx m

lemma boundingDepth (hx : x.Changes R) : (Eval.boundingDepth x).Changes R :=
  fun m => (after_boundingDepth x m).symm ▸ hx m

lemma withFrame (hx : x.Changes R) (path function : String) :
    (Eval.withFrame path function x).Changes R := by
  intro m
  rw [after_withFrame]
  exact hx { m with stack := m.stack.push path function }

lemma withModule (hx : x.Changes R) (r : Ref .module) : (Eval.withModule r x).Changes R := by
  intro m
  rw [after_withModule]
  exact hx { m with module := some r }

lemma atBottom (hx : x.Changes R) : (Eval.atBottom x).Changes R := by
  intro m
  rw [after_atBottom]
  split
  · exact hx.withFrame m.modulePath "<module>" m
  · exact hx m

variable [Std.Refl R]

/-- Something that leaves the store alone. -/
lemma aside (h : ∀ m, (x.after m).world.store = m.world.store) : x.Changes R := by
  intro m
  unfold Machine.OnStores
  rw [h m]
  exact refl _

lemma store : Eval.store.Changes R := aside fun _ => rfl

lemma fault (f : Fault) : (Eval.fault f : Eval α).Changes R := .throw _

lemma orCrash (y : Except Crash α) : (Eval.orCrash y).Changes R :=
  aside fun m => by rw [after_orCrash]

lemma askStore (y : Store → Except Fault α) : (Eval.askStore y).Changes R :=
  aside fun m => by rw [after_askStore]

lemma builtin (b : Builtin) (args : List Value) : (Eval.onWorld (b.call args)).Changes R := by
  refine aside fun m => ?_
  rw [after_onWorld]
  unfold EStateM.after Builtin.call
  cases b.outcome m.world.store args <;> rfl

lemma atLine (line : Int) : (Eval.atLine line).Changes R := by
  refine aside fun m => ?_
  show (if line = 0 then m else { m with stack := m.stack.setLine line }).world.store = _
  split <;> rfl

end Changes

/-! ### What the host does -/

lemma after_complaining (host : Host) (x : Eval α) (m : Machine) :
    (complaining host x).after m = x.after m ∨
      (complaining host x).after m = (complain host).after (x.after m) := by
  unfold EStateM.after complaining
  generalize x m = r
  rcases r with ⟨a, m'⟩ | ⟨e, m'⟩
  · exact .inl rfl
  · cases e with
    | fault f =>
      dsimp only
      generalize complain host m' = r
      cases r <;> exact .inr rfl
    | _ => exact .inl rfl

/-- A relation between states that holds as long as store and stack stay the same, and across new
modules and evaluations. -/
structure HostLaw (R : Machine → Machine → Prop) : Prop where
  trans {m₁ m₂ m₃ : Machine} : R m₁ m₂ → R m₂ m₃ → R m₁ m₃
  aside {m m' : Machine} : m'.world.store = m.world.store → m'.stack = m.stack → R m m'
  newModule (path : String) : (onStore (StoreM.newModuleAt path)).Within R
  evaluate (host : Host) (limits : Limits) (n : Node) (scope : Ref .scope) :
    (evaluate host limits n scope).Within R

namespace HostLaw

variable {R : Machine → Machine → Prop} (h : HostLaw R)
include h

lemma isTrans : IsTrans Machine R := ⟨fun _ _ _ => h.trans⟩

lemma isRefl : Std.Refl R := ⟨fun _ => h.aside rfl rfl⟩

lemma orCrash (y : Except Crash α) : (Eval.orCrash y).Within R := by
  intro m
  rw [after_orCrash]
  exact h.aside rfl rfl

lemma modifying {f : Machine → Machine} (hs : ∀ m, (f m).world.store = m.world.store)
    (hf : ∀ m, (f m).stack = m.stack) : (modify f : Eval Unit).Within R :=
  fun m => h.aside (hs m) (hf m)

lemma newCachedModule (path : String) : (Eval.newCachedModule path).Within R := by
  have := h.isTrans
  have := h.isRefl
  refine .bind (h.newModule path) fun r => .bind .get fun m => .bind (h.orCrash _) fun cache => ?_
  exact .bind (h.modifying (fun _ => rfl) fun _ => rfl) fun _ => .pure r

lemma moduleOfFile (host : Host) (raw : String) : (Eval.moduleOfFile host raw).Within R := by
  have := h.isTrans
  have := h.isRefl
  refine .bind (h.orCrash _) fun path => .bind .get fun m => ?_
  split
  · exact .pure _
  · exact h.newCachedModule path.text

/-- A host opens a module. -/
lemma openModule (host : Host) (raw : String) : (Eval.openModule host raw).Within R := by
  have := h.isTrans
  have enter (r : Ref .module) : (do
      modify fun m : Machine => { m with module := some r }
      return ((← Eval.store).module r).scope : Eval (Ref .scope)).Within R :=
    fun m => h.aside rfl rfl
  unfold Eval.openModule
  dsimp only
  split
  · exact .bind (h.newModule "") enter
  · exact .bind (h.moduleOfFile host raw) enter

lemma complain (host : Host) : (Eval.complain host).Within R := by
  have := h.isTrans
  have := h.isRefl
  have sources {y : SourceM String} : (onSources y).Within R := by
    intro m
    unfold EStateM.after onSources
    cases y m.sources <;> exact h.aside rfl rfl
  refine .bind .get fun m => .ite (.pure ()) (.bind (.bind .get fun _ => sources) fun text => ?_)
  exact h.modifying (fun _ => rfl) fun _ => rfl

lemma faultNowhere (f : Fault) : (Eval.faultNowhere f : Eval α).Within R :=
  fun _ => h.aside rfl rfl

lemma mainProgram (host : Host) (limits : Limits) (raw : String) :
    (Eval.mainProgram host limits raw).Within R := by
  have := h.isTrans
  have := h.isRefl
  refine .bind (h.orCrash _) fun read => ?_
  cases read with
  | error refusal => exact h.faultNowhere _
  | ok text =>
    refine .bind (h.openModule host raw) fun scope => .bind .get fun m => ?_
    refine .bind (fun _ => h.aside rfl rfl) fun parsed => ?_
    cases parsed with
    | crash c => exact .throw _
    | syntaxError message => exact h.faultNowhere _
    | program p => exact h.evaluate host limits (.program p) scope

/-- A host runs a file. -/
lemma runFile (host : Host) (limits : Limits) (raw : String) :
    (Eval.runFile host limits raw).Within R := by
  have := h.isTrans
  have reset : resetReport.Within R := fun _ => h.aside rfl rfl
  refine .bind reset fun _ => .bind (fun _ => h.aside rfl rfl) fun _ => fun m => ?_
  have hm := h.mainProgram host limits raw m
  rcases after_complaining host (Eval.mainProgram host limits raw) m with e | e
  · rw [e]
    exact hm
  · rw [e]
    exact h.trans hm (h.complain host _)

end HostLaw

end Eval

/-- A turn leaves the engine with the state in which the session ends it. -/
lemma Engine.turn_snd {α : Type} (p : Engine) (i : Nat) (x : Eval α) :
    (p.turn i x).2 = p.absorb i (x.after (p.machine i)) := by
  unfold Engine.turn EStateM.after
  cases x (p.machine i) <;> rfl

end Wei
