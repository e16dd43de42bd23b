import Mathlib.Data.List.Forall2
import Wei.Proofs.Keeping

/-!
Trails: what is evaluated inside of what.

A trail leads from a task to a part of it, to a part of that part, and so on. On the way codes are
activated: functions are called and texts are imported. Each activation is known by its code and by
the innermost statement of this that is evaluated. The frames of the call stack are not needed to
say this; that they tell of the activations is shown here.
-/

namespace Wei

/-! ### Activations -/

/-- What is activated. -/
inductive Code where
  /-- What a host has evaluated, with the module that it has made current. -/
  | node (module : Option (Ref .module))
  | function (f : Ref .function)
  /-- The text of a module. -/
  | text (r : Ref .module)
  deriving DecidableEq

/-- An activation of a code: where the code is from and how it is called, the scope in which it was
made, and how many scopes there were when it was activated. Of the statements of the code that are
evaluated inside of each other it has the innermost. That may be a loop which evaluates its
condition again, when it has executed its body. -/
structure Activation where
  code : Code
  path : String
  function : String
  scope : Ref .scope
  since : Nat
  statement : Option Stmt
  again : Bool

namespace Activation

/-- The activation when it has come to a statement. -/
def onto (a : Activation) (s : Stmt) : Activation := { a with statement := some s, again := false }

/-- A function has been called in the first state and has come to a statement in the second. -/
def ofFunction (m m' : Machine) (f : Ref .function) (s : Stmt) : Activation :=
  let code := m'.world.store.function f
  ⟨.function f, code.path, code.title, code.scope, m.world.store.scopes.size, some s, false⟩

/-- The text of a module has been imported in the first state and has come to a statement in the
second. -/
def ofText (m m' : Machine) (r : Ref .module) (s : Stmt) : Activation :=
  let module := m'.world.store.module r
  ⟨.text r, module.path, "<module>", module.scope, m.world.store.scopes.size, some s, false⟩

/-- The frame tells of the activation. Its line is that of the innermost statement, if somebody said
which it is, unless that is a loop with its condition again. -/
structure Fits (a : Activation) (f : Frame) : Prop where
  path : f.path = a.path
  function : f.function = a.function
  line {s : Stmt} : a.statement = some s → a.again = false → s.line ≠ 0 → f.line = s.line

end Activation

/-- Is the task a statement? -/
def Task.isStmt : Task → Bool
  | .stmt _ _ => true
  | _ => false

/-- **The activations when a part is evaluated**, the innermost first. A part in the same statement
is in the same activation, as is a statement inside of it. A statement of a function or of a text is
in a new one. -/
inductive Evaluator.Opens (parts : Evaluator) (host : Host) (rounds : Nat) (t : Task)
    (m : Machine) : List Activation → Task → Machine → List Activation → Prop
  | same {t' : Task} {m' : Machine} {as : List Activation} : t.isMixed = false → t'.isStmt = false →
    Opens parts host rounds t m as t' m' as
  | name {scope : Ref .scope} {e : Expr} {as : List Activation} : t = .expr scope (.load e) →
    Opens parts host rounds t m as (.expr scope e) m as
  | parent {scope : Ref .scope} {line : Int} {x : String} {e : Expr} {body : List Stmt}
      {as : List Activation} : t = .stmt scope (.mk line (.classDef x (some e) body)) →
    Opens parts host rounds t m as (.expr scope e) m as
  | again {scope own : Ref .scope} {line : Int} {condition : Expr} {body : List Stmt} {s : Stmt}
      {m' m₁ : Machine} {a : Activation} {as : List Activation} :
    t = .stmt scope (.mk line (.loop condition body)) → s ∈ body →
    parts.Evaluates (fun ps => (ps.deepen (load host) rounds).run t) m (.stmt own s) m₁ →
    Opens parts host rounds t m (a :: as) (.expr scope condition) m'
      ({ a with again := true } :: as)
  | member {scope : Ref .scope} {s₀ s : Stmt} {e : Expr} {m' : Machine} {a : Activation}
      {as : List Activation} : t = .stmt scope s₀ → s ∈ s₀.action.members →
    Opens parts host rounds t m (a :: as) (.expr scope e) m' (a.onto s :: as)
  | stmt {scope own : Ref .scope} {s₀ s : Stmt} {m' : Machine} {a : Activation}
      {as : List Activation} : t = .stmt scope s₀ → s ∈ s₀.action.inner →
    Opens parts host rounds t m (a :: as) (.stmt own s) m' (a.onto s :: as)
  | call {f : Ref .function} {own : Ref .scope} {s : Stmt} {m' : Machine} {as : List Activation} :
    t.isMixed = false → s ∈ (m'.world.store.function f).body →
    Opens parts host rounds t m as (.stmt own s) m' (.ofFunction m m' f s :: as)
  | text {name path : String} {scope own : Ref .scope} {e : Expr} {s : Stmt} {p : Program}
      {m₁ m' : Machine} {as : List Activation} : t = .expr scope (.load e) →
    parts.expr scope e m = .ok (.str name) m₁ → host.find m₁.world.cache name = .file path →
    (host.read path).2 = .ok p → s ∈ p.body → Opens parts host rounds t m as (.stmt own s) m'
      (.ofText m m' ⟨m₁.world.store.modules.size⟩ s :: as)

/-! ### What activations tell -/

namespace Activation

/-- What the activation tells of its code is so in the store. -/
structure Sourced (s : Store) (a : Activation) : Prop where
  function {f : Ref .function} : a.code = .function f → f.index < s.functions.size ∧
    a.path = (s.function f).path ∧ a.scope = (s.function f).scope
  text {r : Ref .module} : a.code = .text r → r.index < s.modules.size ∧
    a.path = (s.module r).path ∧ a.scope = (s.module r).scope

lemma Sourced.mono {s s' : Store} {a : Activation} (h : a.Sourced s) (hs : s.Extends s') :
    a.Sourced s' := by
  constructor
  · intro f hf
    obtain ⟨hlive, hpath, hscope⟩ := h.function hf
    rw [hs.function hlive]
    exact ⟨Nat.lt_of_lt_of_le hlive hs.functions, hpath, hscope⟩
  · intro r hr
    obtain ⟨hlive, hpath, hscope⟩ := h.text hr
    rw [hs.modulePath hlive, hs.moduleScope hlive]
    exact ⟨Nat.lt_of_lt_of_le hlive hs.modules, hpath, hscope⟩

/-- It has come to another statement. -/
lemma Sourced.of_code {s : Store} {a a' : Activation} (h : a.Sourced s) (hcode : a'.code = a.code)
    (hpath : a'.path = a.path) (hscope : a'.scope = a.scope) : a'.Sourced s := by
  constructor
  · intro f hf
    rw [hpath, hscope]
    exact h.function (hcode ▸ hf)
  · intro r hr
    rw [hpath, hscope]
    exact h.text (hcode ▸ hr)

/-- **The module that is current**: that of the innermost text, or that of the host. Calls do not
change it. -/
def current : List Activation → Option (Ref .module)
  | [] => none
  | a :: as =>
    match a.code with
    | .node module => module
    | .text r => some r
    | .function _ => current as

lemma current_of_code {a a' : Activation} (hcode : a'.code = a.code) (as : List Activation) :
    current (a' :: as) = current (a :: as) := by
  rw [current, current, hcode]

end Activation

/-- The activations tell of the state in which a task is evaluated: of the frames on the stack, of
the current module, of what is in the store, and of the scope, which lies in that of the code and
has been made in the activation. -/
structure Task.Stands (t : Task) (m : Machine) (a : Activation) (as : List Activation) : Prop where
  fits : List.Forall₂ Activation.Fits (a :: as) m.stack.frames
  module : m.module = Activation.current (a :: as)
  sourced : ∀ a' ∈ a :: as, a'.Sourced m.world.store
  since : a.since ≤ m.world.store.scopes.size
  enters {scope : Ref .scope} : t.scope? = some scope →
    a.since ≤ scope.index ∧ m.world.store.Enters a.since scope a.scope

lemma Task.Stands.lies {t : Task} {m : Machine} {a : Activation} {as : List Activation}
    (h : t.Stands m a as) {scope : Ref .scope} (hscope : t.scope? = some scope) :
    m.world.store.Lies scope a.scope :=
  (h.enters hscope).2.lies

/-- A part in the same activation, which may have come to another statement. -/
lemma Task.Stands.inner {t t' : Task} {m m' : Machine} {a a' : Activation} {as : List Activation}
    (h : t.Stands m a as) (hm : m.Onward m') (hcode : a'.code = a.code) (hpath : a'.path = a.path)
    (hscope : a'.scope = a.scope) (hsince : a'.since = a.since)
    (hfits : List.Forall₂ Activation.Fits (a' :: as) m'.stack.frames)
    (henters : ∀ {scope}, t'.scope? = some scope → ∃ outer, t.scope? = some outer ∧
      m'.world.store.Enters m.world.store.scopes.size scope outer) :
    t'.Stands m' a' as := by
  obtain ⟨ha, has⟩ := List.forall_mem_cons.mp h.sourced
  refine ⟨hfits, ?_, List.forall_mem_cons.mpr ⟨?_, fun a₁ ha₁ => (has a₁ ha₁).mono hm.store⟩,
    hsince ▸ h.since.trans hm.store.scopes, fun {scope} heq => ?_⟩
  · rw [hm.module, Activation.current_of_code hcode]
    exact h.module
  · exact (ha.mono hm.store).of_code hcode hpath hscope
  · obtain ⟨outer, houter, hinside⟩ := henters heq
    obtain ⟨hle, hway⟩ := h.enters houter
    rw [hsince, hscope]
    have hinside := hinside.mono h.since
    exact ⟨hinside.le_index hle, hinside.trans (hm.store.enters hway)⟩

/-- A part in the same scope. -/
lemma Task.Stands.same {t t' : Task} {m m' : Machine} {a a' : Activation} {as : List Activation}
    (h : t.Stands m a as) (hm : m.Onward m') (hcode : a'.code = a.code) (hpath : a'.path = a.path)
    (hscope : a'.scope = a.scope) (hsince : a'.since = a.since)
    (hfits : List.Forall₂ Activation.Fits (a' :: as) m'.stack.frames)
    (heq : ∀ {scope}, t'.scope? = some scope → t.scope? = some scope) : t'.Stands m' a' as :=
  h.inner hm hcode hpath hscope hsince hfits fun h => ⟨_, heq h, .refl⟩

/-- A part in a new activation. -/
lemma Task.Stands.outer {t t' : Task} {m m' : Machine} {a a' : Activation} {as : List Activation}
    (h : t.Stands m a as) (hstore : m.world.store.Extends m'.world.store)
    (hmodule : m'.module = Activation.current (a' :: a :: as))
    (hsourced : a'.Sourced m'.world.store)
    (hfits : List.Forall₂ Activation.Fits (a' :: a :: as) m'.stack.frames)
    (hsince : a'.since = m.world.store.scopes.size)
    (henters : ∀ {scope}, t'.scope? = some scope →
      a'.since ≤ scope.index ∧ m'.world.store.Enters a'.since scope a'.scope) :
    t'.Stands m' a' (a :: as) :=
  ⟨hfits, hmodule,
    List.forall_mem_cons.mpr ⟨hsourced, fun a₁ ha₁ => (h.sourced a₁ ha₁).mono hstore⟩,
    hsince ▸ hstore.scopes, henters⟩

/-- What comes out of a part in the same activation. -/
def Reaction.Inner (u : Reaction) : Prop := u = .pass ∨ ∃ lets, u = .noting lets

/-- What comes out of a part in a new activation. -/
def Reaction.Outer (u : Reaction) : Prop := u = .called ∨ ∃ module, u = .loaded module

namespace Activation

variable {m m' : Machine} {a : Activation} {as : List Activation}

lemma fits_of_onward (h : List.Forall₂ Fits (a :: as) m.stack.frames)
    (hm : m.stack.SameButLine m'.stack) :
    ∃ f rest, m'.stack.frames = f :: rest ∧ f.path = a.path ∧ f.function = a.function ∧
      List.Forall₂ Fits as rest := by
  obtain ⟨⟨frames⟩, hframes⟩ : ∃ s : CallStack, s = m.stack := ⟨m.stack, rfl⟩
  rw [← hframes] at h hm
  cases h with
  | @cons _ f _ rest hf hrest =>
    have hbelow : m'.stack.frames.tail = rest := congrArg CallStack.frames hm.below
    have horigins := hm.origins
    cases hm' : m'.stack.frames with
    | nil =>
      rw [hm'] at horigins
      cases horigins
    | cons f' rest' =>
      rw [hm'] at horigins hbelow
      obtain ⟨hpath, hfunction⟩ := Prod.mk.inj (List.cons.inj horigins).1
      refine ⟨f', rest', rfl, hpath.trans hf.path, hfunction.trans hf.function, ?_⟩
      cases hbelow
      exact hrest

/-- The frame has come to the line of a statement. -/
lemma fits_onto (h : List.Forall₂ Fits (a :: as) m.stack.frames)
    (hm : m.stack.SameButLine m'.stack) {s : Stmt} (hline : m'.stack.On s.line) :
    List.Forall₂ Fits (a.onto s :: as) m'.stack.frames := by
  obtain ⟨f, rest, hframes, hpath, hfunction, hrest⟩ := fits_of_onward h hm
  rw [hframes]
  refine .cons ⟨hpath, hfunction, fun hs _ hne => ?_⟩ hrest
  cases hs
  exact hline hne f (by rw [CallStack.top?, hframes]; rfl)

/-- Nobody has said on which line the condition is. -/
lemma fits_again (h : List.Forall₂ Fits (a :: as) m.stack.frames)
    (hm : m.stack.SameButLine m'.stack) :
    List.Forall₂ Fits ({ a with again := true } :: as) m'.stack.frames := by
  obtain ⟨f, rest, hframes, hpath, hfunction, hrest⟩ := fits_of_onward h hm
  rw [hframes]
  exact .cons ⟨hpath, hfunction, fun _ hagain => by cases hagain⟩ hrest

end Activation

/-- A function that has statements is there. -/
lemma Store.index_lt_of_mem_body {s : Store} {f : Ref .function} {x : Stmt}
    (h : x ∈ (s.function f).body) : f.index < s.functions.size := by
  by_contra hge
  have hdefault : s.function f = default := Arena.get_of_size_le _ (Nat.le_of_not_lt hge)
  rw [hdefault] at h
  cases h

lemma Machine.Calls.function_eq {m m' : Machine} {f : Ref .function} {own : Ref .scope} {s : Stmt}
    (h : m.Calls f own s m') : m'.world.store.function f = m.world.store.function f :=
  h.store.function (Store.index_lt_of_mem_body h.body)

lemma Machine.module_atText (m : Machine) (host : Host) (path : String) :
    (m.atText host path).world.store.module ⟨m.world.store.modules.size⟩ =
        ⟨path, ⟨m.world.store.scopes.size⟩, []⟩ ∧
      m.world.store.modules.size < (m.atText host path).world.store.modules.size := by
  have hstore : (m.atText host path).world.store = (StoreM.newModuleAt path).after m.world.store :=
    rfl
  rw [hstore, EStateM.after_of_ok (StoreM.newModuleAt_eq path m.world.store)]
  refine ⟨Arena.get_push_size .., ?_⟩
  show _ < (m.world.store.modules.push _).size
  rw [Arena.size_push]
  exact Nat.lt_succ_self _

/-- The module of a text that is imported. -/
lemma Machine.Imports.module_eq {m m' : Machine} {host : Host} {name path : String} {s : Stmt}
    (h : m.Imports host name path s m') {r : Ref .module} (hr : r = ⟨m.world.store.modules.size⟩) :
    r.index < m'.world.store.modules.size ∧ (m'.world.store.module r).path = path ∧
      (m'.world.store.module r).scope = ⟨m.world.store.scopes.size⟩ := by
  subst hr
  obtain ⟨hmodule, hlive⟩ := m.module_atText host path
  have hr : (⟨m.world.store.modules.size⟩ : Ref .module).index <
      (m.atText host path).world.store.modules.size := hlive
  exact ⟨Nat.lt_of_lt_of_le hr h.onward.store.modules,
    (h.onward.store.modulePath hr).trans (congrArg Module.path hmodule),
    (h.onward.store.moduleScope hr).trans (congrArg Module.scope hmodule)⟩

/-- A statement of a function that is called stands in an activation of the function. -/
lemma Task.Stands.calls {t : Task} {m m₁ m' : Machine} {a : Activation} {as : List Activation}
    {f : Ref .function} {own : Ref .scope} {s : Stmt} (h : t.Stands m a as) (hm : m.Steady m₁)
    (hcalls : m₁.Calls f own s m') :
    (Task.stmt own s).Stands m' (.ofFunction m m' f s) (a :: as) := by
  have hbody : s ∈ (m'.world.store.function f).body := hcalls.function_eq ▸ hcalls.body
  obtain ⟨line, hframes⟩ := hcalls.frame
  have hmodule : m'.module = m.module := hcalls.module.trans hm.module
  have hsourced : (Activation.ofFunction m m' f s).Sourced m'.world.store := by
    refine ⟨fun hf => ?_, fun hr => by cases hr⟩
    cases hf
    exact ⟨Store.index_lt_of_mem_body hbody, rfl, rfl⟩
  refine h.outer (hm.store.trans hcalls.store) (hmodule.trans h.module) hsourced ?_ rfl
    fun heq => ?_
  · rw [hframes, hm.stack, ← hcalls.function_eq]
    refine .cons ⟨rfl, rfl, fun hs _ hne => ?_⟩ h.fits
    cases hs
    exact hcalls.line hne _ (by rw [CallStack.top?, hframes, hcalls.function_eq]; rfl)
  · cases heq
    have henters := hcalls.enters.mono hm.store.scopes
    rw [← hcalls.function_eq] at henters
    exact ⟨hm.store.scopes.trans hcalls.fresh, henters⟩

/-- A statement of a text that is imported stands in an activation of the text. -/
lemma Task.Stands.imports {t : Task} {m m₁ m' : Machine} {a : Activation} {as : List Activation}
    {host : Host} {name path : String} {s : Stmt} (h : t.Stands m a as) (hm : m.Steady m₁)
    (himports : m₁.Imports host name path s m') :
    (Task.stmt ⟨m₁.world.store.scopes.size⟩ s).Stands m'
      (.ofText m m' ⟨m₁.world.store.modules.size⟩ s) (a :: as) := by
  obtain ⟨hlive, hpath, hscope⟩ := himports.module_eq rfl
  obtain ⟨line, hframes⟩ := himports.onward.stack.frames_of_push
  have hsourced : (Activation.ofText m m' ⟨m₁.world.store.modules.size⟩ s).Sourced
      m'.world.store := by
    refine ⟨fun hf => (by cases hf), fun hr => ?_⟩
    cases hr
    exact ⟨hlive, rfl, rfl⟩
  refine h.outer (hm.store.trans himports.activates.store) himports.onward.module hsourced ?_ rfl
    fun heq => ?_
  · rw [hframes]
    refine .cons ⟨hpath.symm, rfl, fun hs _ hne => ?_⟩ ?_
    · cases hs
      exact himports.line hne _ (by rw [CallStack.top?, hframes]; rfl)
    · show List.Forall₂ Activation.Fits (a :: as) m₁.stack.frames
      rw [hm.stack]
      exact h.fits
  · cases heq
    refine ⟨hm.store.scopes, ?_⟩
    rw [← hscope]
    exact .refl

/-- **How activations go along with parts.** -/
theorem Part.opens {host : Host} {parts : Evaluator} {rounds : Nat} {t t' : Task} {m m' : Machine}
    {h : List Query} {u : Reaction} {a : Activation} {as : List Activation}
    (hpart : Part host t m h t' m' u) (hstands : t.Stands m a as)
    (hpasses : ∀ q ∈ h, parts.Passes (fun ps => (ps.deepen (Evaluator.load host) rounds).run t) m
      (t.manner host m) q) :
    ∃ a' as', parts.Opens host rounds t m (a :: as) t' m' (a' :: as') ∧ t'.Stands m' a' as' ∧
      m'.report = m.report ∧ (u.Inner ∧ as' = as ∨ u.Outer ∧ as' = a :: as) := by
  have hsteady (hm : m.Steady m') : List.Forall₂ Activation.Fits (a :: as) m'.stack.frames := by
    rw [hm.stack]
    exact hstands.fits
  cases hpart with
  | expr hscope hm =>
    refine ⟨a, as, .same hscope.plain rfl, hstands.same hm.onward rfl rfl rfl rfl (hsteady hm)
      fun heq => ?_, hm.report, .inl ⟨.inl rfl, rfl⟩⟩
    cases heq
    exact hscope.scope
  | name ht _ =>
    refine ⟨a, as, .name ht, hstands.same (.refl m) rfl rfl rfl rfl hstands.fits fun heq => ?_, rfl,
      .inl ⟨.inl rfl, rfl⟩⟩
    cases heq
    rw [ht]
    rfl
  | parent ht =>
    refine ⟨a, as, .parent ht, hstands.same (.refl m) rfl rfl rfl rfl hstands.fits fun heq => ?_,
      rfl, .inl ⟨.inl rfl, rfl⟩⟩
    cases heq
    rw [ht]
    rfl
  | walk hplain hm =>
    exact ⟨a, as, .same hplain rfl, hstands.same hm.onward rfl rfl rfl rfl (hsteady hm)
      fun heq => (by cases heq), hm.report, .inl ⟨.inl rfl, rfl⟩⟩
  | again ht hs hasked hm =>
    obtain ⟨_, hmem⟩ := hasked
    refine ⟨{ a with again := true }, as, .again ht hs (hpasses _ hmem).evaluates,
      hstands.same hm rfl rfl rfl rfl (Activation.fits_again hstands.fits hm.stack) fun heq => ?_,
      hm.report, .inl ⟨.inl rfl, rfl⟩⟩
    cases heq
    rw [ht]
    rfl
  | @member _ _ s _ _ ht hs hm hline =>
    refine ⟨a.onto s, as, .member ht hs,
      hstands.same hm rfl rfl rfl rfl (Activation.fits_onto hstands.fits hm.stack hline)
        fun heq => ?_, hm.report, .inl ⟨.inr ⟨_, rfl⟩, rfl⟩⟩
    cases heq
    rw [ht]
    rfl
  | @stmt _ _ _ s _ ht hs hm hline henters =>
    refine ⟨a.onto s, as, .stmt ht hs,
      hstands.inner hm rfl rfl rfl rfl (Activation.fits_onto hstands.fits hm.stack hline)
        fun heq => ?_, hm.report, .inl ⟨.inr ⟨_, rfl⟩, rfl⟩⟩
    cases heq
    exact ⟨_, by rw [ht]; rfl, henters⟩
  | call hplain hm hcalls =>
    exact ⟨_, a :: as, .call hplain (hcalls.function_eq ▸ hcalls.body), hstands.calls hm hcalls,
      hcalls.report.trans hm.report, .inr ⟨.inl rfl, rfl⟩⟩
  | text ht hh hm himports =>
    obtain ⟨p, hread, hs⟩ := himports.body
    have hname := (hpasses _ (hh.subset List.mem_cons_self)).run
    exact ⟨_, a :: as, .text ht hname himports.find hread hs, hstands.imports hm himports,
      himports.onward.report.trans hm.report, .inr ⟨.inr ⟨_, rfl⟩, rfl⟩⟩

/-! ### Trails -/

/-- **A trail.** The evaluation of a task at some depth, in these activations, comes to evaluate
another one, as a part of a part and so on, in those. It may end when a member of a class has been
reached. -/
inductive Evaluator.Trail (host : Host) (rounds : Nat) : Nat → Task → Machine → List Activation →
    Nat → Task → Machine → List Activation → Prop
  | self (depth : Nat) (t : Task) (m : Machine) (as : List Activation) :
    Trail host rounds depth t m as depth t m as
  | declaring {depth : Nat} {scope : Ref .scope} {s₀ s : Stmt} {m : Machine} {a : Activation}
      {as : List Activation} : s ∈ s₀.action.members →
    Trail host rounds depth (.stmt scope s₀) m (a :: as) depth (.stmt scope s₀) m (a.onto s :: as)
  | part {depth depth' : Nat} {t t' t'' : Task} {m m' m'' : Machine}
      {as as' as'' : List Activation} :
    (ofDepth (load host) rounds depth).Evaluates
      (fun ps => (ps.deepen (load host) rounds).run t) m t' m' →
    (ofDepth (load host) rounds depth).Opens host rounds t m as t' m' as' →
    Trail host rounds depth t' m' as' depth' t'' m'' as'' →
    Trail host rounds (depth + 1) t m as depth' t'' m'' as''

namespace Evaluator

variable {host : Host} {rounds depth depth' : Nat} {t t' : Task} {m m' : Machine}
  {as as' : List Activation}

/-- Activations are added, and none is taken off. -/
lemma Opens.length_le {parts : Evaluator} (h : parts.Opens host rounds t m as t' m' as') :
    as.length ≤ as'.length := by
  cases h with
  | call _ _ => exact Nat.le_succ _
  | text _ _ _ _ _ => exact Nat.le_succ _
  | _ => exact Nat.le_refl _

lemma Trail.length_le (h : Trail host rounds depth t m as depth' t' m' as') :
    as.length ≤ as'.length := by
  induction h with
  | self depth t m as => exact Nat.le_refl _
  | declaring _ => exact Nat.le_refl _
  | part _ hopens _ ih => exact Nat.le_trans hopens.length_le ih

/-- What a trail leads to is evaluated. -/
lemma Trail.reaches (h : Trail host rounds depth t m as depth' t' m' as') :
    Reaches (load host) rounds depth t m depth' t' m' := by
  induction h with
  | self _ _ _ _ => exact .self ..
  | declaring _ => exact .self ..
  | part heval _ _ ih => exact .part heval ih

/-- Whatever comes to be evaluated, there is a trail to it, and the activations tell of it. -/
theorem Reaches.exists_trail (h : Reaches (load host) rounds depth t m depth' t' m')
    {a : Activation} {as : List Activation} (hstands : t.Stands m a as) :
    ∃ a' as', Trail host rounds depth t m (a :: as) depth' t' m' (a' :: as') ∧
      t'.Stands m' a' as' := by
  induction h generalizing a as with
  | self depth t m => exact ⟨a, as, .self .., hstands⟩
  | @part depth depth' t t₁ t' m m₁ m' hpart _ ih =>
    have hreading := (ofDepth_keeping host rounds depth).reading host rounds t m
    obtain ⟨h, u, hasks, hsince⟩ := hreading.asks hpart
    obtain ⟨a₁, as₁, hopens, hstands₁, _⟩ := Part.opens hasks hstands hsince.passes
    obtain ⟨a', as', htrail, hstands'⟩ := ih hstands₁
    exact ⟨a', as', .part hpart hopens htrail, hstands'⟩

end Evaluator

/-! ### What hosts have evaluated -/

/-- The statements that are executed for a node. -/
def Node.statements : Node → List Stmt
  | .program p => p.body
  | .stmt s => [s]
  | .expr _ => []

/-- The activation of what a host has evaluated, before it has come to a statement. -/
def Activation.ofNode (m : Machine) (scope : Ref .scope) : Activation :=
  ⟨.node m.module, m.modulePath, "<module>", scope, 0, none, false⟩

/-- The state in which a node is evaluated: nothing has failed, and there is one frame. -/
def Machine.atBottom (m : Machine) : Machine :=
  { m with report := m.report.reset, stack := ⟨[⟨m.modulePath, "<module>", 0⟩]⟩ }

/-- A node with what takes the exits that come out of it, or keeps them. -/
def Eval.wholeNode (parts : Evaluator) (n : Node) (scope : Ref .scope) : Eval Value :=
  recording (takingReturn (outsideLoops (node parts scope n)))

/-- What becomes of a node when a part of it exits. -/
def Reaction.ended : Reaction := (noting fun e => !e.isReturn).after straying

lemma Reaction.ended_fair : ended.Fair :=
  (noting_fair fun e he => by cases e <;> trivial).after straying_final straying_world

/-- What is asked for when a node is evaluated: its statements one after the other, or its
expression. -/
def Node.manner (n : Node) (b : Machine) (scope : Ref .scope) : Manner where
  Asks _ t m u := u = .ended ∧
    ((∃ s ∈ n.statements, t = .stmt scope s ∧ b.Onward m ∧ m.stack.On s.line) ∨
      ∃ e, n = .expr e ∧ t = .expr scope e ∧ m = b)
  Alters _ _ _ := False

namespace Eval

variable {b m m' : Machine} {e e' : Exit}

/-- What is put around a node. -/
def settle (b : Machine) (r : Outcome Value) : Outcome Value :=
  recording (takingReturn (outsideLoops fun _ => r)) b

/-- Some of it is around a program text already. -/
def settleProgram (b : Machine) (r : Outcome Value) : Outcome Value :=
  settle b (takingReturn (outsideLoops fun _ => r) b)

lemma settle_of_ended (h : Reaction.ended e m = some (e', m')) :
    settle b (.error e m) = .error e' m' ∧ settle b (.error e (m.noting e)) = .error e' m' := by
  cases e with
  | returning v => cases h
  | fault f =>
    cases h
    exact ⟨rfl, congrArg (EStateM.Result.error _) (m.recordFault_recordFault f)⟩
  | breaking =>
    cases h
    have hstray := m.recordFault_recordFault (.strayExit "break_value")
    exact ⟨congrArg (EStateM.Result.error _) hstray, congrArg (EStateM.Result.error _) hstray⟩
  | continuing =>
    cases h
    have hstray := m.recordFault_recordFault (.strayExit "continue_value")
    exact ⟨congrArg (EStateM.Result.error _) hstray, congrArg (EStateM.Result.error _) hstray⟩
  | _ =>
    cases h
    exact ⟨rfl, rfl⟩

lemma settleProgram_of_ended (h : Reaction.ended e m = some (e', m')) :
    settleProgram b (.error e (m.noting e)) = .error e' m' := by
  cases e with
  | returning v => cases h
  | fault f =>
    cases h
    exact congrArg (EStateM.Result.error _) (m.recordFault_recordFault f)
  | breaking =>
    cases h
    exact congrArg (EStateM.Result.error _) (m.recordFault_recordFault _)
  | continuing =>
    cases h
    exact congrArg (EStateM.Result.error _) (m.recordFault_recordFault _)
  | _ =>
    cases h
    rfl

end Eval

/-- A node that comes to its end, or to the value that it returns. -/
def Machine.EndsNode (b : Machine) (_ : List Query) (r : Outcome Value) : Prop :=
  (∃ v m, r = .ok v m) ∧ b.Onward r.state

/-- Statements of a node, with what is around it. -/
lemma Node.plan_of_reciting {n : Node} {b : Machine} {scope : Ref .scope}
    {F : Evaluator → Outcome Value} {g : Outcome Value → Outcome Value}
    (hF : (Manner.reciting b scope n.statements).Plan b.EndsNode [] b.stock F)
    (hok : ∀ v m, g (.ok v m) = .ok v m) (hreturn : ∀ v m, g (.error (.returning v) m) = .ok v m)
    (hended : ∀ e m e' m', Reaction.ended e m = some (e', m') →
      g (.error e (m.noting e)) = .error e' m') :
    (n.manner b scope).Plan b.EndsNode [] b.stock fun ev => g (F ev) := by
  refine hF.around (fun _ _ _ h => h.elim) ?_ ?_
  · rintro h _ m _ ⟨⟨s, hs, rfl, honward, hline⟩, rfl⟩
    refine ⟨.ended, ⟨rfl, .inl ⟨s, hs, rfl, honward, hline⟩⟩, Reaction.ended_fair, ?_, ?_⟩
    · exact fun e m₁ e' m₂ hu => ⟨e, m₁.noting e, rfl, hended e m₁ e' m₂ hu⟩
    · intro e m₁ e₁ m₃ hkeeps hnone hu
      cases hu
      cases e with
      | returning v =>
        show b.EndsNode _ (g (.error (.returning v) m₁)) ∧
          (g (.error (.returning v) m₁)).state.stock = m₁.stock
        rw [hreturn]
        exact ⟨⟨⟨v, m₁, rfl⟩, honward.trans hkeeps⟩, rfl⟩
      | _ => cases hnone
  · rintro h r ⟨⟨v, m, rfl⟩, honward⟩
    rw [hok]
    exact ⟨⟨⟨v, m, rfl⟩, honward⟩, rfl⟩

/-- **How nodes go about it.** -/
theorem Node.plan (n : Node) (b : Machine) (scope : Ref .scope) :
    (n.manner b scope).Plan b.EndsNode [] b.stock fun ev => Eval.wholeNode ev n scope b := by
  cases n with
  | program p =>
    refine Node.plan_of_reciting (n := .program p) (g := Eval.settleProgram b)
      ((Manner.Plan.sequence b scope p.body .null).imp fun _ r hr => ⟨hr.answers, hr.onward⟩)
      (fun _ _ => rfl) (fun _ _ => rfl) fun e m e' m' => Eval.settleProgram_of_ended
  | stmt s =>
    refine Node.plan_of_reciting (n := .stmt s) (g := Eval.settle b)
      ((Manner.Plan.execute List.mem_cons_self (.refl b)).imp fun _ r hr => ⟨hr.1, hr.2.1⟩)
      (fun _ _ => rfl) (fun _ _ => rfl) fun e m e' m' h => (Eval.settle_of_ended h).2
  | expr e =>
    refine .ask (t := .expr scope e) (k := fun r _ => Eval.settle b r)
      ⟨rfl, .inr ⟨e, rfl, rfl, rfl⟩⟩ Reaction.ended_fair
      (fun _ _ _ _ _ hu => (Eval.settle_of_ended hu).1) fun r hr hgoes => ?_
    cases r with
    | ok v m => exact .answer (r := .ok v m) ⟨⟨v, m, rfl⟩, hr.steady.onward⟩
    | error e m =>
      have hfinal := hr.final rfl
      obtain ⟨m', hu⟩ := Reaction.ended_fair.final (m := m) hfinal
      cases (hgoes e m rfl).symm.trans hu

/-- A fault that has been kept is not kept again. -/
lemma Eval.recording_boundingDepth {α : Type} (x : Eval α) (m : Machine) :
    recording (boundingDepth fun _ => recording x m) m = recording (boundingDepth x) m := by
  unfold recording boundingDepth
  cases x m with
  | ok a m₁ => rfl
  | error e m₁ =>
    cases e with
    | fault f => exact congrArg (EStateM.Result.error _) (m₁.recordFault_recordFault f)
    | _ => rfl

/-- What a host is answered when no frame was there. -/
lemma Eval.evaluateOver_of_idle (parts : Evaluator) (n : Node) (scope : Ref .scope) {m : Machine}
    (hidle : m.stack.frames = []) :
    evaluateOver parts n scope m = withFrame m.modulePath "<module>"
      (recording (boundingDepth fun _ => wholeNode parts n scope m.atBottom))
      { m with report := m.report.reset } := by
  have hbottom : evaluateOver parts n scope m = withFrame m.modulePath "<module>"
      (recording (boundingDepth (takingReturn (outsideLoops (node parts scope n)))))
      { m with report := m.report.reset } := if_pos (by simp [hidle])
  have hstart : { ({ m with report := m.report.reset } : Machine) with
      stack := m.stack.push m.modulePath "<module>" } = m.atBottom := by
    unfold Machine.atBottom CallStack.push
    rw [hidle]
  have hwhole := recording_boundingDepth (takingReturn (outsideLoops (node parts scope n)))
    m.atBottom
  rw [hbottom]
  unfold withFrame
  dsimp only
  rw [hstart, ← hwhole]
  rfl

/-- The evaluation of a node for a host comes to a statement of the node, or to its expression, in
this activation. -/
inductive Eval.Starts (host : Host) (limits : Limits) (n : Node) (scope : Ref .scope)
    (m : Machine) : Task → Machine → Activation → Prop
  | expr {e : Expr} : n = .expr e →
    Starts host limits n scope m (.expr scope e) m.atBottom (.ofNode m scope)
  | stmt {s : Stmt} {m' : Machine} : s ∈ n.statements →
    (Evaluator.ofDepth (Evaluator.load host) limits.rounds limits.depth).Evaluates
      (fun ps => wholeNode ps n scope) m.atBottom (.stmt scope s) m' →
    Starts host limits n scope m (.stmt scope s) m' ((Activation.ofNode m scope).onto s)

/-- What can be read off the plan of a node. -/
lemma Evaluator.Keeping.reading_node {parts : Evaluator} (hparts : parts.Keeping) (n : Node)
    (scope : Ref .scope) (b : Machine) :
    parts.Reading (fun ps => Eval.wholeNode ps n scope) b (n.manner b scope) b.EndsNode :=
  reading_of_plan hparts (n.plan b scope)

/-- What is asked for when a node is evaluated is where trails start. -/
lemma Node.starts {host : Host} {limits : Limits} {n : Node} {scope : Ref .scope} {m m' : Machine}
    {h : List Query} {t : Task} {u : Reaction} (hasks : (n.manner m.atBottom scope).Asks h t m' u)
    (heval : (Evaluator.ofDepth (Evaluator.load host) limits.rounds limits.depth).Evaluates
      (fun ps => Eval.wholeNode ps n scope) m.atBottom t m') :
    ∃ a, Eval.Starts host limits n scope m t m' a ∧ u = .ended := by
  obtain ⟨rfl, ⟨s, hs, rfl, _⟩ | ⟨e, rfl, rfl, rfl⟩⟩ := hasks
  · exact ⟨_, .stmt hs heval, rfl⟩
  · exact ⟨_, .expr rfl, rfl⟩

/-- Where trails start, nothing has been reported. -/
lemma Eval.Starts.stands {host : Host} {limits : Limits} {n : Node} {scope : Ref .scope}
    {m m' : Machine} {t : Task} {a : Activation} (h : Starts host limits n scope m t m' a) :
    t.Stands m' a [] ∧ m'.report = m.report.reset := by
  have hstands (e : Expr) : (Task.expr scope e).Stands m.atBottom (.ofNode m scope) [] := by
    refine ⟨.cons ⟨rfl, rfl, fun hs => by cases hs⟩ .nil, rfl, ?_, Nat.zero_le _, fun heq => ?_⟩
    · exact List.forall_mem_singleton.mpr ⟨fun hf => (by cases hf), fun hr => (by cases hr)⟩
    · cases heq
      exact ⟨Nat.zero_le _, .refl⟩
  cases h with
  | expr _ => exact ⟨hstands _, rfl⟩
  | stmt hs heval =>
    have hparts := Evaluator.ofDepth_keeping host limits.rounds limits.depth
    obtain ⟨_, _, ⟨_, hasks⟩, _⟩ := (hparts.reading_node n scope m.atBottom).asks heval
    rcases hasks with ⟨s', _, heq, honward, hline⟩ | ⟨e, _, heq, _⟩
    · cases heq
      exact ⟨(hstands default).same honward rfl rfl rfl rfl
        (Activation.fits_onto (hstands default).fits honward.stack hline) id, honward.report⟩
    · cases heq

end Wei
