import Wei.Direct.Session
import Wei.Proofs.Evaluation
import Wei.Proofs.Exits

/-!
How evaluation in direct style tells what an evaluation by exits comes to. An answer is told as it
is; a fault, a value that is being returned, `break` and `continue` are told as values. A construct
that looks at what its parts have answered then goes the way that exits go by themselves, provided
that no answer of a part is itself a fault or on its way. In sound states none is.
-/

namespace Wei

/-- As which value an exit is told, unless the host cannot go on. -/
def Exit.told? : Exit → Option Value
  | .fault f => some (.error f)
  | .returning v => some (.returned v)
  | .breaking => some .breaking
  | .continuing => some .continuing
  | .crash _ => none
  | .tooDeep => none
  | .unfinished => none

/-- What direct style makes of an answer, and of the value as which an exit is told. -/
structure Telling (α β : Type) where
  answer : α → β
  problem : Value → β

namespace Telling

variable {α β : Type}

/-- What direct style makes of an evaluation that came to this. -/
def tell (T : Telling α β) : EStateM.Result Exit Machine α → EStateM.Result Exit Machine β
  | .ok a m => .ok (T.answer a) m
  | .error e m =>
    match e.told? with
    | some v => .ok (T.problem v) m
    | none => .error e m

variable {T : Telling α β} {e : Exit} {m : Machine}

lemma tell_of_told {v : Value} (h : e.told? = some v) :
    T.tell (.error e m) = .ok (T.problem v) m := by
  simp only [tell, h]

lemma tell_of_halt (h : e.told? = none) : T.tell (.error e m) = .error e m := by
  simp only [tell, h]

/-- For evaluations that answer a value. -/
def value : Telling Value Value := ⟨id, id⟩

/-- For evaluations that are done for their effect. -/
def effect : Telling Unit Value := ⟨fun _ => .null, id⟩

/-- For evaluations that answer something else. -/
def attempt : Telling α (Except Value α) := ⟨.ok, .error⟩

/-- What is done for its effect answers null. -/
lemma tell_thenNull (x : Eval Unit) (m : Machine) :
    value.tell ((x >>= fun _ => pure .null : Eval Value) m) = effect.tell (x m) := by
  show value.tell (EStateM.bind x _ m) = _
  unfold EStateM.bind
  cases x m with
  | ok u m₁ => rfl
  | error e m₁ => rfl

end Telling

/-- In a sound state, the first evaluation tells what the second comes to. -/
def Eval.Tells {α β : Type} (T : Telling α β) (d : Eval β) (x : Eval α) (m : Machine) : Prop :=
  m.Sound false → d m = T.tell (x m)

/-- If the evaluation exits, the host cannot go on. -/
def Eval.Faultless {α : Type} (x : Eval α) : Prop :=
  ∀ m e m', x m = .error e m' → e.told? = none

/-- In a sound state the evaluation does what a session may do, and answers nothing dangling. -/
abbrev Eval.Serves (x : Eval Value) (m : Machine) : Prop :=
  x.Does (.lenient false) m fun s v => v.Live s.census

lemma Value.Live.isError {n : Census} {v : Value} (h : v.Live n) : v.isError = false := by
  cases v with
  | error f => exact h.elim
  | _ => rfl

lemma Value.Live.interrupts {n : Census} {v : Value} (h : v.Live n) : v.interrupts = false := by
  simp [Value.interrupts, h.isOrdinary]

/-! ### Operations without faults -/

namespace Eval.Faultless

variable {α β : Type}

lemma pure (a : α) : Faultless (pure a) := by
  rintro m e m' ⟨⟩

lemma bind {x : Eval α} {f : α → Eval β} (hx : x.Faultless) (hf : ∀ a, (f a).Faultless) :
    (x >>= f).Faultless := by
  intro m e m' h
  change EStateM.bind x f m = _ at h
  unfold EStateM.bind at h
  cases hr : x m with
  | ok a m₁ =>
    rw [hr] at h
    exact hf a m₁ e m' h
  | error e₁ m₁ =>
    rw [hr] at h
    obtain ⟨⟩ := h
    exact hx m e m' hr

lemma orCrash (y : Except Crash α) : (Eval.orCrash y).Faultless := by
  intro m e m' h
  cases y with
  | ok a => cases h
  | error c =>
    obtain ⟨⟩ := h
    rfl

lemma onStore {y : StoreM α} (h : ∀ s, ∃ a s', y s = .ok a s') : (Eval.onStore y).Faultless := by
  intro m e m' hy
  obtain ⟨a, s', hs⟩ := h m.world.store
  rw [onStore_eq, hs] at hy
  cases hy

end Eval.Faultless

lemma Eval.newCachedModule_faultless (path : String) : (newCachedModule path).Faultless := by
  refine .bind (.onStore fun s => ?_) fun r => .bind (fun _ _ _ => nofun) fun m => ?_
  · exact ⟨_, _, StoreM.newModuleAt_eq path s⟩
  · exact .bind (.orCrash _) fun cache => fun _ _ _ => nofun

namespace StoreM

lemma bindParameters_faultless (r : Ref .scope) (bs : List (String × Value)) (s : Store) :
    ∃ u s', bindParameters r bs s = .ok u s' := by
  induction bs generalizing s with
  | nil => exact ⟨_, _, rfl⟩
  | cons b rest ih => exact ih _

lemma receiverBindings_faultless (receiver : Receiver) (f : Ref .function) (s : Store) :
    ∃ bs s', Evaluator.receiverBindings receiver f s = .ok bs s' := by
  unfold Evaluator.receiverBindings
  show ∃ bs s', EStateM.bind EStateM.get _ s = .ok bs s'
  dsimp only [EStateM.bind, EStateM.get]
  cases (s.function f).owner with
  | none => exact ⟨_, _, rfl⟩
  | some owner => exact ⟨_, _, rfl⟩

end StoreM

/-! ### Steps of a construct -/

namespace Eval.Tells

variable {α β γ : Type} {T : Telling α β} {m : Machine}

lemma of_sound {d : Eval β} {x : Eval α} (h : m.Sound false → Tells T d x m) : Tells T d x m :=
  fun hm => h hm hm

lemma pure {a : α} {b : β} (h : b = T.answer a) : Tells T (pure b) (pure a) m := by
  intro hm
  rw [h]
  rfl

lemma fault {f : Fault} {b : β} (h : b = T.problem (.error f)) :
    Tells T (Pure.pure b) (Eval.fault f) m := by
  intro hm
  rw [h]
  rfl

/-- An exit is told by a value. -/
lemma exit {e : Exit} {v : Value} {b : β} (he : e.told? = some v) (h : b = T.problem v) :
    Tells T (Pure.pure b) (throw e) m := by
  intro hm
  rw [h]
  exact (Telling.tell_of_told he).symm

/-- The host cannot go on. -/
lemma halt {e : Exit} (he : e.told? = none) : Tells T (throw e) (throw e) m := by
  intro hm
  exact (Telling.tell_of_halt he).symm

/-- Something has been evaluated, and it is looked at whether a fault was answered. -/
lemma stepOver {S : Telling γ Value} {d : Eval Value} {x : Eval γ} {P : Store → γ → Prop}
    {g : Value → Eval β} {f : γ → Eval α} (hid : ∀ v, S.problem v = v)
    (hS : ∀ s a, P s a → (S.answer a).isError = false) (hd : d.Tells S x m)
    (hx : x.Does (.lenient false) m P) (hc : Leeway.none.Lets (x m))
    (hg : ∀ a m₁, m.census ≤ m₁.census → P m₁.world.store a →
      (g (S.answer a)).Tells T (f a) m₁) :
    Tells T (d >>= fun v => if v.isError then Pure.pure (T.problem v) else g v) (x >>= f) m := by
  intro hm
  have hd := hd hm
  have hx := hx hm
  show EStateM.bind d _ m = T.tell (EStateM.bind x f m)
  unfold EStateM.bind
  rw [hd]
  generalize x m = r at hx hc ⊢
  cases r with
  | ok a m₁ =>
    show (if (S.answer a).isError = true then _ else g (S.answer a)) m₁ = T.tell (f a m₁)
    rw [hS _ a hx.2]
    exact hg a m₁ (hx.1.census_le hm) hx.2 (hx.1.sound hm)
  | error e m₁ =>
    cases e with
    | returning v => cases hc
    | breaking => cases hc
    | continuing => cases hc
    | fault f =>
      show (if (S.problem (.error f)).isError = true then Pure.pure (T.problem _)
        else g _ : Eval β) m₁ = _
      rw [hid]
      rfl
    | _ => rfl

/-- A part has been evaluated, and its answer is looked at. -/
lemma step {d x : Eval Value} {g : Value → Eval β} {f : Value → Eval α}
    (hd : d.Tells .value x m) (hx : x.Serves m) (hc : Leeway.none.Lets (x m))
    (hg : ∀ v m₁, m.census ≤ m₁.census → v.Live m₁.census → (g v).Tells T (f v) m₁) :
    Tells T (d >>= fun v => if v.isError then Pure.pure (T.problem v) else g v) (x >>= f) m :=
  stepOver (fun _ => rfl) (fun _ _ hv => hv.isError) hd hx hc hg

/-- Something has been done for its effect, and it is looked at whether that is a fault. -/
lemma effectStep {d : Eval Value} {x : Eval Unit} {g : Eval β} {f : Eval α}
    (hd : d.Tells .effect x m) (hx : x.Does (.lenient false) m fun _ _ => True)
    (hc : Leeway.none.Lets (x m)) (hg : ∀ m₁, m.census ≤ m₁.census → g.Tells T f m₁) :
    Tells T (d >>= fun v => if v.isError then Pure.pure (T.problem v) else g) (x >>= fun _ => f)
      m :=
  stepOver (fun _ => rfl) (fun _ _ _ => rfl) hd hx hc fun _ m₁ hn _ => hg m₁ hn

/-- Parts have been evaluated, and it is looked at whether one of them is a fault. What follows may
count on what they came to. -/
lemma attemptStep_of_eq {d : Eval (Except Value γ)} {x : Eval γ} {P : Store → γ → Prop}
    {k : Except Value γ → Eval β} {f : γ → Eval α}
    (hk : ∀ p, k (.error p) = Pure.pure (T.problem p)) (hd : d.Tells .attempt x m)
    (hx : x.Does (.lenient false) m P)
    (hg : ∀ a m₁, x m = .ok a m₁ → m.census ≤ m₁.census → P m₁.world.store a →
      (k (.ok a)).Tells T (f a) m₁) :
    Tells T (d >>= k) (x >>= f) m := by
  intro hm
  have hd := hd hm
  have hx := hx hm
  show EStateM.bind d k m = T.tell (EStateM.bind x f m)
  unfold EStateM.bind
  rw [hd]
  generalize x m = r at hx hg ⊢
  cases r with
  | ok a m₁ => exact hg a m₁ rfl (hx.1.census_le hm) hx.2 (hx.1.sound hm)
  | error e m₁ =>
    cases he : e.told? with
    | none => rw [Telling.tell_of_halt he, Telling.tell_of_halt he]
    | some v =>
      rw [Telling.tell_of_told he, Telling.tell_of_told he]
      show k (.error v) m₁ = _
      rw [hk]
      rfl

/-- Parts have been evaluated, and it is looked at whether one of them is a fault. -/
lemma attemptStep {d : Eval (Except Value γ)} {x : Eval γ} {P : Store → γ → Prop}
    {k : Except Value γ → Eval β} {f : γ → Eval α}
    (hk : ∀ p, k (.error p) = Pure.pure (T.problem p)) (hd : d.Tells .attempt x m)
    (hx : x.Does (.lenient false) m P)
    (hg : ∀ a m₁, m.census ≤ m₁.census → P m₁.world.store a → (k (.ok a)).Tells T (f a) m₁) :
    Tells T (d >>= k) (x >>= f) m :=
  attemptStep_of_eq hk hd hx fun a m₁ _ => hg a m₁

/-- An operation without faults comes first in both styles. -/
lemma bind {y : Eval γ} {P : Store → γ → Prop} {g : γ → Eval β} {f : γ → Eval α}
    (hy : y.Faultless) (hx : y.Does (.lenient false) m P)
    (hg : ∀ a m₁, m.census ≤ m₁.census → P m₁.world.store a → (g a).Tells T (f a) m₁) :
    Tells T (y >>= g) (y >>= f) m := by
  intro hm
  have hx := hx hm
  show EStateM.bind y g m = T.tell (EStateM.bind y f m)
  unfold EStateM.bind
  cases hr : y m with
  | ok a m₁ =>
    rw [hr] at hx
    exact hg a m₁ (hx.1.census_le hm) hx.2 (hx.1.sound hm)
  | error e m₁ => exact (Telling.tell_of_halt (hy m e m₁ hr)).symm

/-- Something that only serves the host comes first in both styles. -/
lemma aside_bind {y : Eval γ} {g : γ → Eval β} {f : γ → Eval α} {a : γ} {m' : Machine}
    (hy : y m = .ok a m') (hw : m'.world = m.world) (hmod : m'.module = m.module)
    (h : (g a).Tells T (f a) m') : Tells T (y >>= g) (y >>= f) m := by
  intro hm
  have hm' := Machine.Step.sound (.aside hw fun r hr => hm.module r (hmod ▸ hr)) hm
  show EStateM.bind y g m = T.tell (EStateM.bind y f m)
  unfold EStateM.bind
  rw [hy]
  exact h hm'

lemma orCrash_bind {y : Except Crash γ} {g : γ → Eval β} {f : γ → Eval α}
    (hg : ∀ a, (g a).Tells T (f a) m) :
    Tells T (Eval.orCrash y >>= g) (Eval.orCrash y >>= f) m := by
  cases y with
  | ok a => exact hg a
  | error c => exact fun _ => rfl

lemma ite {c : Prop} [Decidable c] {d d' : Eval β} {x x' : Eval α} (h : c → Tells T d x m)
    (h' : ¬ c → Tells T d' x' m) :
    Tells T (if c then d else d') (if c then x else x') m := by
  split
  · next hc => exact h hc
  · next hc => exact h' hc

lemma store_bind {g : Store → Eval β} {f : Store → Eval α}
    (h : (g m.world.store).Tells T (f m.world.store) m) :
    Tells T (Eval.store >>= g) (Eval.store >>= f) m := h

lemma get_bind {g : Machine → Eval β} {f : Machine → Eval α} (h : (g m).Tells T (f m) m) :
    Tells T (get >>= g) (get >>= f) m := h

/-! ### Operations of a construct's own -/

lemma answer {x : Eval Value} (hc : Leeway.none.Lets (x m)) :
    Tells .value (Eval.answer x) x m := by
  intro hm
  unfold Eval.answer
  generalize x m = r at hc ⊢
  cases r with
  | ok v m₁ => rfl
  | error e m₁ =>
    cases e with
    | returning v => cases hc
    | breaking => cases hc
    | continuing => cases hc
    | _ => rfl

lemma attempt {x : Eval α} (hc : Leeway.none.Lets (x m)) :
    Tells .attempt (Eval.attempt x) x m := by
  intro hm
  unfold Eval.attempt
  generalize x m = r at hc ⊢
  cases r with
  | ok v m₁ => rfl
  | error e m₁ =>
    cases e with
    | returning v => cases hc
    | breaking => cases hc
    | continuing => cases hc
    | _ => rfl

lemma change (y : StoreM Unit) : Tells .effect (Eval.change y) (Eval.onStore y) m := by
  intro hm
  rw [← Telling.tell_thenNull]
  exact answer (Confined.bind (.onStore y) (fun _ => .own (.pure Value.null)) m) hm

/-- What is done for its effect answers null. -/
lemma thenNull {d : Eval Value} {x : Eval Unit} (h : d.Tells .effect x m) :
    Tells .value d (x >>= fun _ => Pure.pure .null) m := by
  intro hm
  rw [Telling.tell_thenNull]
  exact h hm

/-! ### Around a part -/

lemma withFrame {d : Eval β} {x : Eval α} {path function : String}
    (h : d.Tells T x { m with stack := m.stack.push path function }) :
    Tells T (Eval.withFrame path function d) (Eval.withFrame path function x) m := by
  intro hm
  have h := h ⟨hm.store, hm.cache, hm.module⟩
  unfold Eval.withFrame
  rw [h]
  generalize x _ = r
  cases r with
  | ok a m₁ => rfl
  | error e m₁ => cases e <;> rfl

lemma withModule {d : Eval β} {x : Eval α} {r : Ref .module} (hr : r.Live m.census)
    (h : d.Tells T x { m with module := some r }) :
    Tells T (Eval.withModule r d) (Eval.withModule r x) m := by
  intro hm
  have hin : ∀ q ∈ some r, q.Live m.census := by
    rintro q ⟨⟩
    exact hr
  have h := h ⟨hm.store, hm.cache, hin⟩
  unfold Eval.withModule
  rw [h]
  generalize x _ = r
  cases r with
  | ok a m₁ => rfl
  | error e m₁ => cases e <;> rfl

/-- A fault is kept. -/
lemma keeping {d x : Eval Value} (hd : d.Tells .value x m) (hx : x.Serves m) :
    Tells .value (d >>= Direct.keeping) (Eval.recording x) m := by
  intro hm
  have hd := hd hm
  have hx := hx hm
  show EStateM.bind d Direct.keeping m = _
  unfold EStateM.bind Eval.recording
  rw [hd]
  generalize x m = r at hx ⊢
  cases r with
  | ok v m₁ =>
    have hv := hx.2
    cases v with
    | error f => exact hv.elim
    | _ => rfl
  | error e m₁ => cases e <;> rfl

/-- A statement comes before others, which are executed unless it interrupts them. -/
lemma sequenceStep {d x : Eval Value} {g f : Value → Eval Value} (hd : d.Tells .value x m)
    (hx : x.Serves m)
    (hg : ∀ v m₁, m.census ≤ m₁.census → v.Live m₁.census → (g v).Tells .value (f v) m₁) :
    Tells .value (d >>= fun v => if v.interrupts then Pure.pure v else g v) (x >>= f) m := by
  intro hm
  have hd := hd hm
  have hx := hx hm
  show EStateM.bind d _ m = Telling.value.tell (EStateM.bind x f m)
  unfold EStateM.bind
  rw [hd]
  generalize x m = r at hx ⊢
  cases r with
  | ok v m₁ =>
    have hv : (id v : Value).interrupts = false := hx.2.interrupts
    show (if (id v : Value).interrupts = true then _ else g v) m₁ = _
    rw [hv]
    exact hg v m₁ (hx.1.census_le hm) hx.2 (hx.1.sound hm)
  | error e m₁ => cases e <;> rfl

/-- The body of a function has run. -/
lemma called {d x : Eval Value} {path function : String}
    (hd : d.Tells .value x { m with stack := m.stack.push path function })
    (hx : x.Serves { m with stack := m.stack.push path function }) :
    Tells .value (Eval.withFrame path function (d >>= Direct.outsideLoops) >>= Direct.returnValue)
      (Eval.takingReturn (Eval.withFrame path function (Eval.outsideLoops do
        let _ ← x
        Pure.pure .null))) m := by
  intro hm
  have hd := hd ⟨hm.store, hm.cache, hm.module⟩
  have hx := hx ⟨hm.store, hm.cache, hm.module⟩
  show EStateM.bind (Eval.withFrame path function (EStateM.bind d Direct.outsideLoops))
      Direct.returnValue m =
    Telling.value.tell (Eval.takingReturn (Eval.withFrame path function
      (Eval.outsideLoops (EStateM.bind x fun _ => Pure.pure .null))) m)
  unfold Eval.takingReturn Eval.withFrame Eval.outsideLoops EStateM.bind
  beta_reduce
  rw [hd]
  generalize x _ = r at hx ⊢
  cases r with
  | ok v m₁ =>
    have hv := hx.2
    cases v with
    | error f => exact hv.elim
    | returned v => exact hv.elim
    | breaking => exact hv.elim
    | continuing => exact hv.elim
    | _ => rfl
  | error e m₁ => cases e <;> rfl

/-- A round of a loop has run, and unless it ended the loop the others follow. -/
lemma afterRound {d x rest : Eval Value} {others : Eval Unit} (hd : d.Tells .value x m)
    (hx : x.Serves m) (hrest : ∀ m₁, m.census ≤ m₁.census → rest.Tells .effect others m₁) :
    Tells .effect (d >>= fun v => Direct.afterRound v rest)
      (Eval.loopRound x >>= fun b => if b then others else Pure.pure ()) m := by
  intro hm
  have hd := hd hm
  have hx := hx hm
  show EStateM.bind d _ m = Telling.effect.tell (EStateM.bind (Eval.loopRound x) _ m)
  unfold EStateM.bind Eval.loopRound
  rw [hd]
  generalize x m = r at hx ⊢
  cases r with
  | ok v m₁ =>
    have hv := hx.2
    have hrest := hrest m₁ (hx.1.census_le hm) (hx.1.sound hm)
    cases v with
    | error f => exact hv.elim
    | returned v => exact hv.elim
    | breaking => exact hv.elim
    | continuing => exact hv.elim
    | _ => exact hrest
  | error e m₁ =>
    cases e with
    | continuing => exact hrest m₁ (hx.1.census_le hm) (hx.1.sound hm)
    | _ => rfl

end Eval.Tells

end Wei
