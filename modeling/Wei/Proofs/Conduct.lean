import Wei.Proofs.Edit
import Wei.Session

/-!
Conduct: what operations on a state may do to it. An operation that keeps to a conduct gets on from
a sound state by allowed steps only, whether it answers or exits. So it leaves a sound state, and
what was live stays live.

The store changes by edits. The state of a session changes by edits of its store, by printing, by
modules that come into the cache, and in what serves the host.
-/

namespace Wei

/-- What operations on states of one type may do. -/
structure Conduct (ε σ : Type) where
  Sound : σ → Prop
  census : σ → Census
  Step : σ → σ → Prop
  Exits : σ → ε → Prop
  sound_of_step {s s' : σ} : Step s s' → Sound s → Sound s'
  census_le_of_step {s s' : σ} : Step s s' → Sound s → census s ≤ census s'

namespace Conduct

variable {ε σ α β : Type} (C : Conduct ε σ)

/-- Any number of steps, one after the other. -/
def Run : σ → σ → Prop := Relation.ReflTransGen C.Step

/-- An operation that started in `s` may come to this: it got there by steps, and what it answers
is as `Q` says. -/
def Comes (s : σ) (Q : σ → α → Prop) : EStateM.Result ε σ α → Prop
  | .ok a s' => C.Run s s' ∧ Q s' a
  | .error e s' => C.Run s s' ∧ C.Exits s' e

/-- The operation keeps to the conduct if it starts in a sound state. -/
def Allows (x : EStateM ε σ α) (s : σ) (Q : σ → α → Prop) : Prop := C.Sound s → C.Comes s Q (x s)

variable {C} {s s' s'' : σ}

namespace Run

lemma refl (s : σ) : C.Run s s := Relation.ReflTransGen.refl

lemma single (h : C.Step s s') : C.Run s s' := Relation.ReflTransGen.single h

lemma trans (h : C.Run s s') (h' : C.Run s' s'') : C.Run s s'' :=
  Relation.ReflTransGen.trans h h'

/-- What every step keeps, a run keeps. -/
lemma keeps {P : σ → Prop} (hP : ∀ s s', C.Step s s' → C.Sound s → P s → P s')
    (h : C.Run s s') (hs : C.Sound s) (hp : P s) : C.Sound s' ∧ P s' := by
  induction h with
  | refl => exact ⟨hs, hp⟩
  | tail _ hstep ih => exact ⟨C.sound_of_step hstep ih.1, hP _ _ hstep ih.1 ih.2⟩

lemma sound (h : C.Run s s') (hs : C.Sound s) : C.Sound s' :=
  (h.keeps (P := fun _ => True) (fun _ _ _ _ _ => trivial) hs trivial).1

lemma census_le (h : C.Run s s') (hs : C.Sound s) : C.census s ≤ C.census s' :=
  (h.keeps (P := fun s' => C.census s ≤ C.census s')
    (fun _ _ hstep hs hle => hle.trans (C.census_le_of_step hstep hs)) hs le_rfl).2

end Run

namespace Allows

variable {x : EStateM ε σ α} {f : α → EStateM ε σ β} {P : σ → α → Prop} {Q : σ → β → Prop}

lemma pure {Q : σ → α → Prop} {a : α} (h : Q s a) : C.Allows (pure a) s Q :=
  fun _ => ⟨.refl s, h⟩

lemma throw {Q : σ → α → Prop} {e : ε} (h : C.Exits s e) : C.Allows (throw e) s Q :=
  fun _ => ⟨.refl s, h⟩

/-- One operation after the other, where the second may count on what the first came to. -/
lemma bind_of_eq (hx : C.Allows x s P)
    (hf : ∀ a s', x s = .ok a s' → C.Sound s' → C.census s ≤ C.census s' → P s' a →
      C.Allows (f a) s' Q) : C.Allows (x >>= f) s Q := by
  intro hs
  have h := hx hs
  show C.Comes s Q (EStateM.bind x f s)
  unfold EStateM.bind
  cases hr : x s with
  | error e s₁ =>
    rw [hr] at h
    exact h
  | ok a s₁ =>
    rw [hr] at h
    obtain ⟨hrun, ha⟩ := h
    have hs₁ := hrun.sound hs
    have h := hf a s₁ hr hs₁ (hrun.census_le hs) ha hs₁
    dsimp only
    generalize f a s₁ = r at h ⊢
    cases r with
    | ok b s₂ => exact ⟨hrun.trans h.1, h.2⟩
    | error e s₂ => exact ⟨hrun.trans h.1, h.2⟩

/-- One operation after the other. -/
lemma bind (hx : C.Allows x s P)
    (hf : ∀ a s', C.Sound s' → C.census s ≤ C.census s' → P s' a → C.Allows (f a) s' Q) :
    C.Allows (x >>= f) s Q :=
  hx.bind_of_eq fun a s' _ => hf a s'

/-- The answer may be less than what is known of it. -/
lemma imp {Q : σ → α → Prop} (hx : C.Allows x s P)
    (h : ∀ a s', C.Sound s' → C.census s ≤ C.census s' → P s' a → Q s' a) : C.Allows x s Q := by
  intro hs
  have hx := hx hs
  generalize x s = r at hx ⊢
  cases r with
  | ok a s₁ => exact ⟨hx.1, h a s₁ (hx.1.sound hs) (hx.1.census_le hs) hx.2⟩
  | error e s₁ => exact hx

/-- The state is known to be sound. -/
lemma of_sound {Q : σ → α → Prop} (h : C.Sound s → C.Allows x s Q) : C.Allows x s Q :=
  fun hs => h hs hs

lemma ite {c : Prop} [Decidable c] {y : EStateM ε σ α} {Q : σ → α → Prop}
    (hx : c → C.Allows x s Q) (hy : ¬ c → C.Allows y s Q) :
    C.Allows (if c then x else y) s Q := by
  split
  · next h => exact hx h
  · next h => exact hy h

end Allows

end Conduct

/-! ### Stores and sessions -/

variable [Alphabet]

/-- The store changes by edits, and any fault may come out. -/
def Store.conduct (strict : Bool) : Conduct Fault Store where
  Sound := Store.Sound strict
  census := Store.census
  Step := Store.Edit strict
  Exits _ _ := True
  sound_of_step := Store.Edit.sound
  census_le_of_step := Store.Edit.census_le

/-- The operation, started in `s`, changes the store by edits only, and its answer is, in the store
that it leaves, as `Q` says. -/
def StoreM.Does (strict : Bool) {α : Type} (x : StoreM α) (s : Store) (Q : Store → α → Prop) :
    Prop :=
  (Store.conduct strict).Allows x s Q

/-- How many cells of each kind there are. -/
def Machine.census (m : Machine) : Census := m.world.store.census

/-- The store is sound, and the modules that are in the cache or running are there. -/
structure Machine.Sound (strict : Bool) (m : Machine) : Prop where
  store : m.world.store.Sound strict
  cache : ∀ r ∈ m.world.cache.values, r.Live m.census
  module : ∀ r ∈ m.module, r.Live m.census

/-- **One change of the state of a session.** -/
inductive Machine.Step (strict : Bool) (m : Machine) : Machine → Prop
  | edit {s : Store} :
    Store.Edit strict m.world.store s →
      Step strict m { m with world := { m.world with store := s } }
  | print (text : String) :
    Step strict m { m with world := { m.world with out := m.world.out ++ text } }
  | cacheModule {path : String} {r : Ref .module} :
    r.Live m.census → (m.world.store.module r).path = path →
      m.world.cache.contains path = false →
      Step strict m { m with world := { m.world with cache := m.world.cache.insert path r } }
  /-- Something that only serves the host. -/
  | aside {m' : Machine} :
    m'.world = m.world → (∀ r ∈ m'.module, r.Live m.census) → Step strict m m'

/-- Any number of changes, one after the other. -/
def Machine.Run (strict : Bool) : Machine → Machine → Prop :=
  Relation.ReflTransGen (Machine.Step strict)

/-- The exit brings nothing dangling, and if the host failed that was to be reckoned with. -/
def Exit.Allowed (R : Regime) (n : Census) : Exit → Prop
  | .returning v => v.Live n
  | .crash c => R.crash c
  | _ => True

namespace Machine

variable {strict : Bool} {m m' : Machine}

lemma Step.sound (h : Step strict m m') (hm : m.Sound strict) : m'.Sound strict := by
  cases h with
  | edit he =>
    have hn := he.census_le hm.store
    exact ⟨he.sound hm.store, fun r hr => (hm.cache r hr).mono hn,
      fun r hr => (hm.module r hr).mono hn⟩
  | print text => exact ⟨hm.store, hm.cache, hm.module⟩
  | cacheModule hr hpath hnew =>
    refine ⟨hm.store, fun q hq => ?_, hm.module⟩
    rcases OrderedMap.mem_values_insert hq with rfl | hq
    · exact hr
    · exact hm.cache q hq
  | aside hw hmod =>
    have hn : m'.census = m.census := congrArg (fun w => w.store.census) hw
    refine ⟨hw ▸ hm.store, fun q hq => ?_, fun q hq => ?_⟩
    · rw [hn]
      exact hm.cache q (hw ▸ hq)
    · rw [hn]
      exact hmod q hq

lemma Step.census_le (h : Step strict m m') (hm : m.Sound strict) : m.census ≤ m'.census := by
  cases h with
  | edit he => exact he.census_le hm.store
  | print text => exact le_rfl
  | cacheModule hr hpath hnew => exact le_rfl
  | aside hw hmod => exact le_of_eq (congrArg (fun w => w.store.census) hw).symm

/-- What a session may do. -/
def conduct (R : Regime) : Conduct Exit Machine where
  Sound := Machine.Sound R.strict
  census := Machine.census
  Step := Machine.Step R.strict
  Exits m e := e.Allowed R m.census
  sound_of_step := Step.sound
  census_le_of_step := Step.census_le

end Machine

/-- The evaluation, started in `m`, does only what a session may do, and its answer is, in the store
that it leaves, as `Q` says. -/
def Eval.Does (R : Regime) {α : Type} (x : Eval α) (m : Machine) (Q : Store → α → Prop) : Prop :=
  (Machine.conduct R).Allows x m fun m' => Q m'.world.store

namespace Conduct.Run

variable {R : Regime} {m m₁ m₂ : Machine}

/-- Edits of the store. -/
lemma onStore {s : Store} (h : (Store.conduct R.strict).Run m.world.store s) :
    (Machine.conduct R).Run m { m with world := { m.world with store := s } } := by
  induction h with
  | refl => exact .refl m
  | tail _ hedit ih => exact ih.trans (.single (.edit hedit))

/-- At the end, something that only serves the host. -/
lemma andAside (h : (Machine.conduct R).Run m m₁) (hw : m₂.world = m₁.world)
    (hmod : ∀ r ∈ m₂.module, r.Live m₁.census) : (Machine.conduct R).Run m m₂ :=
  h.trans (.single (.aside hw hmod))

end Conduct.Run

namespace Eval.Does

variable {R : Regime} {m : Machine} {α β : Type} {x : Eval α} {Q : Store → α → Prop}

/-! ### Operations -/

lemma pure {a : α} (h : Q m.world.store a) : Does R (pure a) m Q :=
  Conduct.Allows.pure h

lemma throw {e : Exit} (h : e.Allowed R m.census) : Does R (throw e) m Q :=
  Conduct.Allows.throw h

lemma fault (f : Fault) : Does R (Eval.fault f) m Q := Conduct.Allows.throw trivial

lemma bind {f : α → Eval β} {P : Store → α → Prop} {Q : Store → β → Prop} (hx : x.Does R m P)
    (hf : ∀ a m', m'.Sound R.strict → m.census ≤ m'.census → P m'.world.store a →
      (f a).Does R m' Q) :
    (x >>= f).Does R m Q :=
  Conduct.Allows.bind hx hf

lemma bind_of_eq {f : α → Eval β} {P : Store → α → Prop} {Q : Store → β → Prop}
    (hx : x.Does R m P)
    (hf : ∀ a m', x m = .ok a m' → m'.Sound R.strict → m.census ≤ m'.census → P m'.world.store a →
      (f a).Does R m' Q) : (x >>= f).Does R m Q :=
  Conduct.Allows.bind_of_eq hx hf

lemma of_sound (h : m.Sound R.strict → x.Does R m Q) : x.Does R m Q := Conduct.Allows.of_sound h

lemma ite {c : Prop} [Decidable c] {y : Eval α} (hx : c → x.Does R m Q)
    (hy : ¬ c → y.Does R m Q) : Does R (if c then x else y) m Q :=
  Conduct.Allows.ite hx hy

lemma store_bind {f : Store → Eval α} (h : (f m.world.store).Does R m Q) :
    (Eval.store >>= f).Does R m Q := h

lemma get_bind {f : Machine → Eval α} (h : (f m).Does R m Q) : (get >>= f).Does R m Q := h

lemma onStore {y : StoreM α} (h : y.Does R.strict m.world.store Q) :
    (Eval.onStore y).Does R m Q := by
  intro hm
  have h := h hm.store
  rw [Eval.onStore_eq]
  generalize y m.world.store = r at h ⊢
  cases r with
  | ok a s => exact ⟨.onStore h.1, h.2⟩
  | error f s => exact ⟨.onStore h.1, trivial⟩

/-- An operation on the store comes first. It leaves the rest of the state as it is. -/
lemma onStore_bind {y : StoreM α} {f : α → Eval β} {P : Store → α → Prop} {Q : Store → β → Prop}
    (hy : y.Does R.strict m.world.store P)
    (hf : ∀ a s, s.Sound R.strict → m.census ≤ s.census → P s a →
      (f a).Does R { m with world := { m.world with store := s } } Q) :
    (Eval.onStore y >>= f).Does R m Q := by
  refine .bind_of_eq (onStore hy) fun a m' hm' hsound hn ha => ?_
  rw [Eval.onStore_eq] at hm'
  split at hm'
  · obtain ⟨⟩ := hm'
    exact hf a _ hsound.store hn ha
  · cases hm'

lemma askStore {y : Store → Except Fault α} (h : ∀ a, y m.world.store = .ok a → Q m.world.store a) :
    (Eval.askStore y).Does R m Q := by
  intro hm
  unfold Eval.askStore
  cases hy : y m.world.store with
  | ok a => exact ⟨.refl m, h a hy⟩
  | error f => exact ⟨.refl m, trivial⟩

/-- An operation that is a single step. -/
lemma step {a : α} {m' : Machine} (hx : x m = .ok a m') (h : Machine.Step R.strict m m')
    (ha : Q m'.world.store a) : x.Does R m Q := by
  intro hm
  rw [hx]
  exact ⟨.single h, ha⟩

/-- An operation that only serves the host. -/
lemma aside {a : α} {m' : Machine} (hx : x m = .ok a m') (hw : m'.world = m.world)
    (hmod : ∀ r ∈ m'.module, r.Live m.census) (h : Q m.world.store a) : x.Does R m Q := by
  refine .step hx (.aside hw hmod) ?_
  rw [hw]
  exact h

/-- Something that only serves the host comes first. -/
lemma aside_bind {a : α} {m' : Machine} {f : α → Eval β} {Q : Store → β → Prop}
    (hx : x m = .ok a m') (hw : m'.world = m.world) (hmod : m'.module = m.module)
    (hf : (f a).Does R m' Q) : (x >>= f).Does R m Q := by
  refine .of_sound fun hm => ?_
  have h : x.Does R m fun _ _ => True :=
    .aside hx hw (fun r hr => hm.module r (hmod ▸ hr)) trivial
  refine .bind_of_eq h fun b m₁ hb _ _ _ => ?_
  obtain ⟨⟩ := hx.symm.trans hb
  exact hf

lemma atLine (line : Int) : (Eval.atLine line).Does R m fun _ _ => True := by
  refine .of_sound fun hm => .aside rfl ?_ (fun r hr => hm.module r ?_) trivial
  · split <;> rfl
  · split at hr <;> exact hr

lemma orCrash {y : Except Crash α} (h : ∀ a, y = .ok a → Q m.world.store a)
    (hc : ∀ c, y = .error c → R.crash c) : (Eval.orCrash y).Does R m Q := by
  cases y with
  | ok a => exact .pure (h a rfl)
  | error c => exact .throw (hc c rfl)

/-- What the host has to come up with first is there, or it fails. -/
lemma orCrash_bind {y : Except Crash α} {f : α → Eval β} {Q : Store → β → Prop}
    (hc : ∀ c, y = .error c → R.crash c) (hf : ∀ a, y = .ok a → (f a).Does R m Q) :
    (Eval.orCrash y >>= f).Does R m Q := by
  cases y with
  | ok a => exact hf a rfl
  | error c => exact .throw (hc c rfl)

/-! ### Around an evaluation -/

lemma withFrame {path function : String}
    (h : x.Does R { m with stack := m.stack.push path function } Q) :
    (Eval.withFrame path function x).Does R m Q := by
  intro hm
  have hin : (Machine.conduct R).Run m { m with stack := m.stack.push path function } :=
    .single (.aside rfl hm.module)
  have h := h (hin.sound hm)
  have hout {m₁ : Machine} (hrun : (Machine.conduct R).Run _ m₁) :
      (Machine.conduct R).Run m { m₁ with stack := m₁.stack.pop } :=
    (hin.trans hrun).andAside rfl ((hin.trans hrun).sound hm).module
  unfold Eval.withFrame
  generalize x _ = r at h ⊢
  cases r with
  | ok a m₁ => exact ⟨hout h.1, h.2⟩
  | error e m₁ => exact ⟨hout h.1, h.2⟩

lemma withModule {r : Ref .module} (hr : r.Live m.census)
    (h : x.Does R { m with module := some r } Q) : (Eval.withModule r x).Does R m Q := by
  intro hm
  have hin : (Machine.conduct R).Run m { m with module := some r } := by
    refine .single (.aside rfl fun q hq => ?_)
    obtain ⟨⟩ := hq
    exact hr
  have h := h (hin.sound hm)
  -- what was running before is still there afterwards
  have hout {m₁ : Machine} (hrun : (Machine.conduct R).Run { m with module := some r } m₁) :
      (Machine.conduct R).Run m { m₁ with module := m.module } :=
    (hin.trans hrun).andAside rfl fun q hq =>
      (hm.module q hq).mono ((hin.trans hrun).census_le hm)
  unfold Eval.withModule
  generalize x _ = result at h ⊢
  cases result with
  | ok a m₁ => exact ⟨hout h.1, h.2⟩
  | error e m₁ => exact ⟨hout h.1, h.2⟩

lemma recording (h : x.Does R m Q) : (Eval.recording x).Does R m Q := by
  intro hm
  have h := h hm
  unfold Eval.recording
  generalize x m = r at h ⊢
  split
  · next f m₁ => exact ⟨h.1.andAside rfl (h.1.sound hm).module, trivial⟩
  · exact h

lemma takingReturn {x : Eval Value} (h : x.Does R m fun s v => v.Live s.census) :
    (Eval.takingReturn x).Does R m fun s v => v.Live s.census := by
  intro hm
  have h := h hm
  unfold Eval.takingReturn
  generalize x m = r at h ⊢
  split
  · exact h
  · exact h

lemma outsideLoops (h : x.Does R m Q) : (Eval.outsideLoops x).Does R m Q := by
  intro hm
  have h := h hm
  unfold Eval.outsideLoops
  generalize x m = r at h ⊢
  split
  · exact ⟨h.1.andAside rfl (h.1.sound hm).module, trivial⟩
  · exact ⟨h.1.andAside rfl (h.1.sound hm).module, trivial⟩
  · exact h

lemma boundingDepth (h : x.Does R m Q) : (Eval.boundingDepth x).Does R m Q := by
  intro hm
  have h := h hm
  unfold Eval.boundingDepth
  generalize x m = r at h ⊢
  split
  · exact ⟨h.1, trivial⟩
  · exact h

lemma loopRound (h : x.Does R m Q) : (Eval.loopRound x).Does R m fun _ _ => True := by
  intro hm
  have h := h hm
  unfold Eval.loopRound
  generalize x m = r at h ⊢
  split
  · exact ⟨h.1, trivial⟩
  · exact ⟨h.1, trivial⟩
  · exact ⟨h.1, trivial⟩
  · exact h

/-! ### Loops -/

/-- A loop whose rounds may start in any state that comes later. -/
lemma repeating {round : Eval Bool} (rounds : Nat)
    (h : ∀ m', m.census ≤ m'.census → round.Does R m' fun _ _ => True) :
    (Eval.repeating round rounds).Does R m fun _ _ => True := by
  induction rounds generalizing m with
  | zero => exact .throw trivial
  | succ rounds ih =>
    refine .bind (h m le_rfl) fun goesOn m₁ _ hn₁ _ => ?_
    cases goesOn with
    | true => exact ih fun m' hn => h m' (hn₁.trans hn)
    | false => exact .pure trivial

/-- A walk whose body may start in any state that comes later, with anything live. -/
lemma walking {body : Value × Value → Eval Bool} (rounds : Nat) {walk : Iteration}
    (hw : walk.Live m.census)
    (h : ∀ step m', m.census ≤ m'.census → step.1.Live m'.census ∧ step.2.Live m'.census →
      (body step).Does R m' fun _ _ => True) :
    (Eval.walking body rounds walk).Does R m fun _ _ => True := by
  induction rounds generalizing m walk with
  | zero => exact .throw trivial
  | succ rounds ih =>
    refine .of_sound fun hm => .store_bind ?_
    cases hnext : walk.next? m.world.store with
    | none => exact .pure trivial
    | some found =>
      obtain ⟨step, rest⟩ := found
      obtain ⟨hstep, hrest⟩ := hm.store.next?_live hw hnext
      refine .bind (h step m le_rfl hstep) fun goesOn m₁ _ hn₁ _ => ?_
      cases goesOn with
      | true => exact ih (hrest.mono hn₁) fun step m' hn => h step m' (hn₁.trans hn)
      | false => exact .pure trivial

end Eval.Does

end Wei
