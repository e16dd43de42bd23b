import Wei.Engine
import Wei.Proofs.Evaluation
import Wei.Proofs.Exits

/-!
Whatever hosts do with their sessions, in any order and for as long as they like, the state stays
sound: no value that is held anywhere is dangling, and code is only what hosts handed in.
-/

namespace Wei

section Texts

variable [A : Alphabet]

/-! ### What hosts ask for -/

namespace Eval

variable {R : Regime} {m : Machine} {host : Host}

lemma Does.atBottom {α : Type} {x : Eval α} {Q : Store → α → Prop}
    (h : ∀ stack, x.Does R { m with stack := stack } Q) : (Eval.atBottom x).Does R m Q := by
  intro hm
  unfold Eval.atBottom
  split
  · exact Does.withFrame (h _) hm
  · exact h m.stack hm

lemma node_does {parts : Evaluator} (hp : parts.Sound R) {scope : Ref .scope}
    (hscope : scope.Live m.census) {n : Node} (hn : R.Admits n.conforms) :
    (node parts scope n).Does R m fun s v => v.Live s.census := by
  cases n with
  | program p => exact hp.program hscope hn
  | stmt a => exact hp.execute hscope hn
  | expr e => exact hp.expr hscope hn

lemma evaluateBy_does {load : Loader} (hload : load.Sound R) (limits : Limits)
    {scope : Ref .scope} (hscope : scope.Live m.census) {n : Node} (hn : R.Admits n.conforms) :
    (evaluateBy load limits n scope).Does R m fun s v => v.Live s.census := by
  have hp := Evaluator.ofDepth_sound hload limits.rounds limits.depth
  refine .aside_bind rfl rfl rfl (.atBottom fun stack => .recording (.boundingDepth ?_))
  refine .takingReturn (.outsideLoops (node_does hp ?_ hn))
  exact hscope

/-! The host may end in any failure of its own here. -/

variable (hR : ∀ c, R.crash c)
include hR

lemma moduleOfFile_does (raw : String) :
    (moduleOfFile host raw).Does R m fun s r => r.Live s.census := by
  refine .bind (.orCrash (Q := fun _ _ => True) (fun _ _ => trivial) fun c _ => hR c)
    fun path m₁ hm₁ _ _ => .get_bind ?_
  cases hcache : m₁.world.cache.find? path.text with
  | some r => exact .pure (hm₁.cache r (OrderedMap.mem_values_of_find? hcache))
  | none => exact newCachedModule_does (by simp [OrderedMap.contains, hcache])

lemma openModule_does (raw : String) :
    (openModule host raw).Does R m fun s scope => scope.Live s.census := by
  have enter (r : Ref .module) (m₁ : Machine) (hm₁ : m₁.Sound R.strict) (hr : r.Live m₁.census) :
      (do
        modify fun m : Machine => { m with module := some r }
        return ((← store).module r).scope : Eval (Ref .scope)).Does R m₁
          fun s scope => scope.Live s.census := by
    refine .aside (a := (m₁.world.store.module r).scope) rfl rfl (fun q hq => ?_)
      (hm₁.store.moduleScope_live hr)
    obtain ⟨⟩ := hq
    exact hr
  unfold openModule
  by_cases hraw : raw.isEmpty = true
  · rw [if_pos hraw]
    exact .bind (.onStore (StoreM.newModuleAt_does "")) fun r m₁ hm₁ _ hr => enter r m₁ hm₁ hr.1
  · rw [if_neg hraw]
    exact .bind (moduleOfFile_does hR raw) fun r m₁ hm₁ _ hr => enter r m₁ hm₁ hr

lemma evaluate_does (hhost : host.Admitted R.strict) (limits : Limits) {scope : Ref .scope}
    (hscope : scope.Live m.census) {n : Node} (hn : R.Admits n.conforms) :
    (evaluate host limits n scope).Does R m fun s v => v.Live s.census :=
  evaluateBy_does (Evaluator.load_sound hhost fun c _ => hR c) limits hscope hn

lemma onSources_does {α : Type} (x : SourceM α) : (onSources x).Does R m fun _ _ => True := by
  intro hm
  unfold onSources
  cases x m.sources with
  | ok a sources => exact ⟨.single (.aside rfl hm.module), trivial⟩
  | error c sources => exact ⟨.single (.aside rfl hm.module), hR c⟩

lemma complain_does : (complain host).Does R m fun _ _ => True := by
  refine .get_bind (.ite (fun _ => .pure trivial) fun _ => ?_)
  refine .bind (P := fun _ _ => True) (.get_bind (onSources_does hR _)) fun text m₁ hm₁ _ _ => ?_
  exact .aside (a := ()) rfl rfl hm₁.module trivial

lemma Does.complaining {α : Type} {x : Eval α} {Q : Store → α → Prop} (hx : x.Does R m Q) :
    (Eval.complaining host x).Does R m Q := by
  intro hm
  have h := hx hm
  unfold Eval.complaining
  generalize x m = r at h ⊢
  split
  · next f m₁ =>
    have hc : (Machine.conduct R).Comes m₁ _ (complain host m₁) :=
      complain_does hR (h.1.sound hm)
    generalize complain host m₁ = r at hc ⊢
    cases r with
    | ok a m₂ => exact ⟨h.1.trans hc.1, trivial⟩
    | error e m₂ => exact ⟨h.1.trans hc.1, hc.2⟩
  · exact h

lemma mainProgram_does (hhost : host.Admitted R.strict) (limits : Limits) (raw : String) :
    (mainProgram host limits raw).Does R m fun s v => v.Live s.census := by
  refine .bind (.orCrash (Q := fun _ _ => True) (fun _ _ => trivial) fun c _ => hR c)
    fun read m₁ _ _ _ => ?_
  have nowhere {m₂ : Machine} (f : Fault) :
      (faultNowhere f : Eval Value).Does R m₂ fun s v => v.Live s.census :=
    .aside_bind rfl rfl rfl (.fault f)
  cases read with
  | error refusal => exact nowhere _
  | ok text =>
    refine .bind (openModule_does hR raw) fun scope m₂ _ _ hscope => .get_bind ?_
    refine .aside_bind rfl rfl rfl ?_
    cases hparse : host.parse text m₂.modulePath with
    | crash c => exact .throw (hR c)
    | syntaxError message => exact nowhere _
    | program p =>
      refine evaluate_does hR hhost limits ?_ ?_
      · exact hscope
      · exact hhost text _ p hparse

lemma runFile_does (hhost : host.Admitted R.strict) (limits : Limits) (raw : String) :
    (runFile host limits raw).Does R m fun s v => v.Live s.census :=
  .aside_bind rfl rfl rfl (.aside_bind rfl rfl rfl
    (.complaining hR (mainProgram_does hR hhost limits raw)))

end Eval

/-! ### Engines -/

/-- The store is sound, and the modules that are in a cache or current in a session are there. -/
structure Engine.Sound (strict : Bool) (p : Engine) : Prop where
  store : p.store.Sound strict
  cache (i : Nat) : ∀ r ∈ (p.caches.get i).values, r.Live p.store.census
  module (i : Nat) : ∀ r ∈ (p.sessions.get i).module, r.Live p.store.census

/-- **What hosts can bring about.** Sessions are made, and take turns in which a host makes a module
current, has a tree evaluated in a scope that is there, or has a file run. Files, readers and limits
may be others each time. If `strict` is set, all trees conform to the grammar. -/
inductive Engine.Reachable (strict : Bool) : Engine → Prop
  | initial : Reachable strict .initial
  | newSession {p : Engine} (verbose : Bool) (limits : Limits) (cache : Option Nat) :
    Reachable strict p → Reachable strict (p.newSession verbose limits cache)
  | openModule {p : Engine} (i : Nat) (host : Host) (raw : String) :
    Reachable strict p → Reachable strict (p.turn i (Eval.openModule host raw)).2
  | evaluate {p : Engine} (i : Nat) {host : Host} (limits : Limits) {n : Node}
      {scope : Ref .scope} :
    Reachable strict p → host.Admitted strict → Admits strict n.conforms →
      scope.Live p.store.census →
      Reachable strict (p.turn i (Eval.evaluate host limits n scope)).2
  | runFile {p : Engine} (i : Nat) {host : Host} (limits : Limits) (raw : String) :
    Reachable strict p → host.Admitted strict →
      Reachable strict (p.turn i (Eval.runFile host limits raw)).2

namespace Engine

variable {strict : Bool} {p : Engine} {i : Nat}

lemma sound_initial : initial.Sound strict := by
  have hblank : Cell.Sound strict (k := .cls) Store.initial.census (Class.blank "object" none) :=
    ⟨nofun, nofun, .always⟩
  refine ⟨⟨Nat.zero_lt_one, fun {k} q hq => ?_⟩, fun j r hr => ?_, fun j r hr => ?_⟩
  · -- the class `object` is the only cell
    refine Store.read_add_induction (default : Store)
      (P := fun _ y => Cell.Sound strict Store.initial.census y) hblank hq fun hq => ?_
    cases k <;> exact absurd hq (Nat.not_lt_zero _)
  · rw [show initial.caches.get j = default from Arena.get_of_size_le _ (Nat.zero_le j)] at hr
    cases hr
  · rw [show initial.sessions.get j = default from Arena.get_of_size_le _ (Nat.zero_le j)] at hr
    cases hr

lemma Sound.newSession (h : p.Sound strict) (verbose : Bool) (limits : Limits)
    (cache : Option Nat) : (p.newSession verbose limits cache).Sound strict := by
  refine ⟨h.store, fun j r hr => ?_, fun j r hr => ?_⟩
  · unfold Engine.newSession at hr
    dsimp only at hr
    split at hr
    · rw [Arena.get_push] at hr
      split at hr
      · cases hr
      · exact h.cache j r hr
    · exact h.cache j r hr
  · unfold Engine.newSession at hr
    rw [Arena.get_push] at hr
    split at hr
    · cases hr
    · exact h.module j r hr

lemma Sound.machine (h : p.Sound strict) (i : Nat) : (p.machine i).Sound strict :=
  ⟨h.store, h.cache _, h.module i⟩

lemma Sound.absorb (h : p.Sound strict) {m : Machine} (hm : m.Sound strict)
    (hn : p.store.census ≤ m.census) : (p.absorb i m).Sound strict := by
  refine ⟨hm.store, fun j r hr => ?_, fun j r hr => ?_⟩
  · unfold Engine.absorb at hr
    rw [Arena.get_set] at hr
    split at hr
    · exact hm.cache r hr
    · exact (h.cache j r hr).mono hn
  · unfold Engine.absorb at hr
    rw [Arena.get_set] at hr
    split at hr
    · exact hm.module r hr
    · exact (h.module j r hr).mono hn

/-- After a turn that keeps to the conduct of sessions. -/
lemma Sound.turn {R : Regime} (h : p.Sound R.strict) {α : Type} {x : Eval α}
    {Q : Store → α → Prop} (hx : x.Does R (p.machine i) Q) : (p.turn i x).2.Sound R.strict := by
  have hm := h.machine i
  have hx := hx hm
  unfold Engine.turn
  generalize x (p.machine i) = r at hx ⊢
  cases r with
  | ok a m => exact h.absorb (hx.1.sound hm) (hx.1.census_le hm)
  | error e m => exact h.absorb (hx.1.sound hm) (hx.1.census_le hm)

/-- **Every state that hosts can bring about is sound**, also with texts over an alphabet if the
strings in all trees are over it. -/
theorem Reachable.soundOver (hA : strict = false → ∀ q, A.has q = true) (h : p.Reachable strict) :
    p.Sound strict := by
  -- whatever failure of the host ends a turn, the state that it leaves is sound
  let R : Regime := .lenientOver strict hA
  have hR : ∀ c, R.crash c := fun _ => trivial
  induction h with
  | initial => exact sound_initial
  | newSession verbose limits cache _ ih => exact ih.newSession verbose limits cache
  | openModule i host raw _ ih => exact Sound.turn (R := R) ih (Eval.openModule_does hR raw)
  | evaluate i limits _ hhost hn hscope ih =>
    refine Sound.turn (R := R) ih (Eval.evaluate_does hR hhost limits ?_ hn)
    exact hscope
  | runFile i limits raw _ hhost ih =>
    exact Sound.turn (R := R) ih (Eval.runFile_does hR hhost limits raw)

end Engine

end Texts

/-- Every state that hosts can bring about is sound. -/
lemma Engine.Reachable.sound {strict : Bool} {p : Engine} (h : p.Reachable strict) :
    p.Sound strict :=
  h.soundOver fun _ _ => rfl

/-- With modules from whatever files, evaluators of any depth do only what a session may do. -/
lemma Evaluator.sound_of_host (host : Host) (rounds depth : Nat) :
    (Evaluator.ofDepth (Evaluator.load host) rounds depth).Sound (.lenient false) :=
  Evaluator.ofDepth_sound
    (Evaluator.load_sound (fun _ _ _ _ => .of_lax _) fun _ _ => trivial) rounds depth

/-! ### Laws about the store and a cache -/

/-- Something that holds of the store, and of each cache of modules, at first, and that no change
breaks. -/
structure Law (strict : Bool) (P : Store → ModuleCache → Prop) : Prop where
  initial : P .initial .empty
  blank {s : Store} {c : ModuleCache} : P s c → P s .empty
  edit {s s' : Store} {c : ModuleCache} : s.Edit strict s' → s.Sound strict → P s c → P s' c
  cacheModule {s : Store} {c : ModuleCache} {path : String} {r : Ref .module} :
    r.Live s.census → (s.module r).path = path → c.contains path = false → P s c →
      P s (c.insert path r)

namespace Law

variable {strict : Bool} {P : Store → ModuleCache → Prop} (law : Law strict P)
include law

lemma step {m m' : Machine} (h : Machine.Step strict m m') (hm : m.Sound strict)
    (hp : P m.world.store m.world.cache) : P m'.world.store m'.world.cache := by
  cases h with
  | edit he => exact law.edit he hm.store hp
  | print text => exact hp
  | cacheModule hr hpath hnew => exact law.cacheModule hr hpath hnew hp
  | aside hw _ =>
    rw [hw]
    exact hp

/-- It holds at all times during a turn. -/
lemma run {m m' : Machine} (h : Machine.Run strict m m') (hm : m.Sound strict)
    (hp : P m.world.store m.world.cache) : P m'.world.store m'.world.cache :=
  (Conduct.Run.keeps (C := Machine.conduct (.lenient strict))
    (P := fun m => P m.world.store m.world.cache) (fun _ _ => law.step) h hm hp).2

/-- It goes on to hold of the caches that other sessions use. -/
lemma run_other {m m' : Machine} (h : Machine.Run strict m m') (hm : m.Sound strict)
    {c : ModuleCache} (hp : P m.world.store c) : P m'.world.store c := by
  refine (Conduct.Run.keeps (C := Machine.conduct (.lenient strict))
    (P := fun m => P m.world.store c) (fun m₁ m₂ hstep hm₁ hp => ?_) h hm hp).2
  cases hstep with
  | edit he => exact law.edit he hm₁.store hp
  | print text => exact hp
  | cacheModule _ _ _ => exact hp
  | aside hw _ =>
    rw [hw]
    exact hp

lemma turn {p : Engine} (hs : p.Sound strict) {i : Nat} {α : Type} {x : Eval α}
    {Q : Store → α → Prop} (hx : x.Does (.lenient strict) (p.machine i) Q)
    (hp : ∀ j, P p.store (p.caches.get j)) (j : Nat) :
    P (p.turn i x).2.store ((p.turn i x).2.caches.get j) := by
  have hm := hs.machine i
  have absorb {m : Machine} (h : Machine.Run strict (p.machine i) m) :
      P (p.absorb i m).store ((p.absorb i m).caches.get j) := by
    show P m.world.store ((p.caches.set _ m.world.cache).get j)
    rw [Arena.get_set]
    split
    · exact law.run h hm (hp _)
    · exact law.run_other h hm (hp j)
  have hx := hx hm
  unfold Engine.turn
  generalize x (p.machine i) = r at hx ⊢
  cases r with
  | ok a m => exact absorb hx.1
  | error e m => exact absorb hx.1

/-- **It holds in every state that hosts can bring about**, of every cache. -/
theorem reachable {p : Engine} (h : p.Reachable strict) (j : Nat) :
    P p.store (p.caches.get j) := by
  have hR : ∀ c, (Regime.lenient strict).crash c := fun _ => trivial
  induction h generalizing j with
  | initial =>
    rw [show Engine.initial.caches.get j = default from Arena.get_of_size_le _ (Nat.zero_le j)]
    exact law.initial
  | @newSession p verbose limits cache _ ih =>
    show P p.store ((if cache.isNone then p.caches.push .empty else p.caches).get j)
    split
    · rw [Arena.get_push]
      split
      · exact law.blank (ih j)
      · exact ih j
    · exact ih j
  | openModule i host raw hp ih => exact law.turn hp.sound (Eval.openModule_does hR raw) ih j
  | @evaluate p i host limits n scope hp hhost hn hscope ih =>
    have hdoes := Eval.evaluate_does (R := .lenient strict) (m := p.machine i) hR hhost limits
      hscope hn
    exact law.turn hp.sound hdoes ih j
  | runFile i limits raw hp hhost ih =>
    exact law.turn hp.sound (Eval.runFile_does hR hhost limits raw) ih j

end Law

end Wei
