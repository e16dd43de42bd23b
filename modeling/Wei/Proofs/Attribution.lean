import Wei.Proofs.Origins

/-!
To which module code is attributed.

A function is told the path of the module that is current when it is made, and an export statement
is about the module that is current. That is the module of the innermost text that is evaluated, or
that of the host: calls do not change it. So code that is evaluated while its own module is current
is attributed to its module. But a function may be called while another module is current, and what
it makes or exports then is attributed to that one.
-/

namespace Wei

/-- Code of the module is evaluated while the module is current: the scope of the code lies in that
of the module. -/
def Activation.AtHome (s : Store) (r : Ref .module) : List Activation → Prop
  | [] => False
  | a :: as => current (a :: as) = some r ∧ s.Lies a.scope (s.module r).scope

namespace Activation

variable {s : Store} {r : Ref .module} {a : Activation} {as : List Activation}

/-- The text of a module is at home. -/
lemma atHome_of_text (h : a.Sourced s) (ha : a.code = .text r) : AtHome s r (a :: as) := by
  obtain ⟨_, _, hscope⟩ := h.text ha
  refine ⟨?_, ?_⟩
  · rw [current, ha]
  · rw [hscope]
    exact .refl

/-- A function is at home if it is called while the module is current in whose scope it was made. -/
lemma atHome_of_function_iff {f : Ref .function} (h : a.Sourced s) (ha : a.code = .function f) :
    AtHome s r (a :: as) ↔
      current as = some r ∧ s.Lies (s.function f).scope (s.module r).scope := by
  obtain ⟨_, _, hscope⟩ := h.function ha
  rw [AtHome, current, ha, hscope]

end Activation

/-! ### Functions -/

/-- A task makes a function in this state, in these activations. It has the code of a literal that
stands in the task, and it is told the path of the current module. -/
structure Task.Makes (t : Task) (m : Machine) (as : List Activation) (c : Closure) : Prop where
  literal : ∃ f ∈ t.literals, c.name = f.name ∧ c.params = f.params ∧ c.body = f.body
  scope : t.scope? = some c.scope
  sourced : ∀ a ∈ as, a.Sourced m.world.store
  module : m.module = Activation.current as
  path : c.path = m.modulePath
  lies : ∀ a ∈ as.head?, m.world.store.Lies c.scope a.scope

/-- What is made at home is attributed to the module in whose scope it is made. -/
lemma Task.Makes.attributed {t : Task} {m : Machine} {as : List Activation} {c : Closure}
    (h : t.Makes m as c) {r : Ref .module} (hr : Activation.AtHome m.world.store r as) :
    c.path = (m.world.store.module r).path ∧
      m.world.store.Lies c.scope (m.world.store.module r).scope := by
  cases as with
  | nil => exact hr.elim
  | cons a as =>
    obtain ⟨hcurrent, hlies⟩ := hr
    refine ⟨?_, (h.lies a rfl).trans hlies⟩
    rw [h.path, Machine.modulePath, h.module, hcurrent]

/-- A task that has brought a function into the stock has made it. -/
lemma Alteration.makes {host : Host} {t : Task} {m : Machine} {a : Activation}
    {as : List Activation} {h : List Query} {σ σ' : Stock} {i : Nat} {c : Closure}
    (halters : Alteration host t m h σ σ') (hstands : t.Stands m a as)
    (hnot : ¬ (i < σ.functions.size ∧ σ.functions.get i = c))
    (hmade : i < σ'.functions.size ∧ σ'.functions.get i = c) :
    ∃ m', m.Onward m' ∧ t.Makes m' (a :: as) c := by
  cases halters with
  | @function scope m' f owner hf hscope hm =>
    obtain ⟨hlt, hget⟩ := hmade
    have hnext : i = m'.world.store.functions.size := by
      by_contra hne
      have hsize : i < m'.world.store.functions.size + 1 := (Arena.size_push ..) ▸ hlt
      refine hnot ⟨Nat.lt_of_le_of_ne (Nat.le_of_lt_succ hsize) hne, ?_⟩
      exact (Arena.get_push_of_ne _ _ hne).symm.trans hget
    have hc : _ = c := (Arena.get_push_size m'.world.store.functions _).symm.trans (hnext ▸ hget)
    subst hc
    refine ⟨m', hm, ⟨f, hf, rfl, rfl, rfl⟩, hscope,
      fun a' ha' => (hstands.sourced a' ha').mono hm.store, hm.module.trans hstands.module, rfl,
      fun a' ha' => ?_⟩
    cases ha'
    exact hm.store.lies (hstands.lies hscope)
  | @module name path scope e p m' ht hh hm hfind hread =>
    have hsame : (m'.atText host path).world.store.functions = m'.world.store.functions :=
      (StoreM.newModuleAt_sameCode path _).functions
    have hsame' : (m'.atText host path).stock.functions = m'.stock.functions := hsame
    rw [hsame'] at hmade
    exact absurd hmade hnot

/-! ### Exports -/

namespace StoreM

/-- Only the module changes whose names are exported. -/
lemma module_after_exportNames {r q : Ref .module} (hq : r ≠ q) (names : List String) (s : Store) :
    ((exportNames r names).after s).module q = s.module q := by
  induction names generalizing s with
  | nil => rfl
  | cons x rest ih =>
    rw [EStateM.after, exportNames_cons]
    by_cases h : s.holds (s.module r).scope x = true
    · rw [if_pos h]
      refine (ih _).trans ?_
      rw [Store.module_setModule, if_neg hq]
    · rw [if_neg h]

/-- All names are exported then. -/
lemma mem_exports_of_exportNames {r : Ref .module} {names : List String} {s s' : Store} {u : Unit}
    (h : exportNames r names s = .ok u s') (x : String) :
    x ∈ (s'.module r).exports ↔ x ∈ names ∨ x ∈ (s.module r).exports := by
  induction names generalizing s with
  | nil =>
    cases h
    simp only [List.not_mem_nil, false_or]
  | cons y rest ih =>
    rw [exportNames_cons] at h
    by_cases hy : s.holds (s.module r).scope y = true
    · rw [if_pos hy] at h
      rw [ih h, Store.module_setModule, if_pos rfl, List.mem_insert_iff, List.mem_cons]
      tauto
    · rw [if_neg hy] at h
      cases h

end StoreM

/-- **What an export statement comes to.** Only the exports of the current module change, and unless
it fails they have all of its names then. -/
structure Machine.Exports (m : Machine) (own : Ref .scope) (as : List Activation)
    (names : List String) (r : Outcome Value) : Prop where
  sourced : ∀ a ∈ as, a.Sourced m.world.store
  lies : ∀ a ∈ as.head?, m.world.store.Lies own a.scope
  only {q : Ref .module} : Activation.current as ≠ some q →
    r.state.world.store.module q = m.world.store.module q
  all {v : Value} {m' : Machine} : r = .ok v m' → ∃ q, Activation.current as = some q ∧
    ∀ x, x ∈ (m'.world.store.module q).exports ↔
      x ∈ names ∨ x ∈ (m.world.store.module q).exports

/-- An export statement at home is about the module in whose scope it stands. -/
lemma Machine.Exports.attributed {m : Machine} {own : Ref .scope} {as : List Activation}
    {names : List String} {r : Outcome Value} (h : m.Exports own as names r) {q : Ref .module}
    (hq : Activation.AtHome m.world.store q as) :
    m.world.store.Lies own (m.world.store.module q).scope ∧ Activation.current as = some q := by
  cases as with
  | nil => exact hq.elim
  | cons a as => exact ⟨(h.lies a rfl).trans hq.2, hq.1⟩

namespace Evaluator

variable {m : Machine}

lemma exportNames_of_none (h : m.module = none) (names : List String) :
    Evaluator.exportNames names m = .error (.fault .exportOutsideModule) m := by
  have hget : (get : Eval Machine) m = .ok m m := rfl
  refine (EStateM.bind_of_ok hget).trans ?_
  rw [h]
  rfl

lemma exportNames_of_some {q : Ref .module} (h : m.module = some q) (names : List String) :
    Evaluator.exportNames names m = Eval.onStore (StoreM.exportNames q names) m := by
  have hget : (get : Eval Machine) m = .ok m m := rfl
  refine (EStateM.bind_of_ok hget).trans ?_
  rw [h]

lemma exports_of_stands (parts : Evaluator) (host : Host) (rounds : Nat) {own : Ref .scope}
    {line : Int} {names : List String} {a : Activation} {as : List Activation}
    (hstands : (Task.stmt own (.mk line (.exports names))).Stands m a as) :
    m.Exports own (a :: as) names
      ((parts.deepen (load host) rounds).stmt own (.mk line (.exports names)) m) := by
  have hlies : ∀ a' ∈ (a :: as).head?, m.world.store.Lies own a'.scope := by
    intro a' ha'
    cases ha'
    exact hstands.lies rfl
  have hrun : (parts.deepen (load host) rounds).stmt own (.mk line (.exports names)) m =
      (Evaluator.exportNames names >>= fun _ => pure .null : Eval Value) m := rfl
  rw [hrun]
  cases hmodule : m.module with
  | none =>
    rw [EStateM.bind_of_error (exportNames_of_none hmodule names)]
    exact ⟨hstands.sourced, hlies, fun _ => rfl, fun h => by cases h⟩
  | some q =>
    have hcurrent : Activation.current (a :: as) = some q := hstands.module.symm.trans hmodule
    have hother {q' : Ref .module} (hq' : Activation.current (a :: as) ≠ some q') : q ≠ q' :=
      fun heq => hq' (heq ▸ hcurrent)
    have hexports := exportNames_of_some hmodule names
    rw [Eval.onStore_eq] at hexports
    have honly (q' : Ref .module) (hq' : q ≠ q') :=
      StoreM.module_after_exportNames hq' names m.world.store
    cases hnames : StoreM.exportNames q names m.world.store with
    | ok u s =>
      rw [hnames] at hexports
      rw [EStateM.bind_of_ok hexports]
      refine ⟨hstands.sourced, hlies, fun {q'} hq' => ?_, fun h => ⟨q, hcurrent, fun x => ?_⟩⟩
      · have h := honly q' (hother hq')
        rwa [EStateM.after_of_ok hnames] at h
      · cases h
        exact StoreM.mem_exports_of_exportNames hnames x
    | error f s =>
      rw [hnames] at hexports
      rw [EStateM.bind_of_error hexports]
      refine ⟨hstands.sourced, hlies, fun {q'} hq' => ?_, fun h => by cases h⟩
      have h := honly q' (hother hq')
      rwa [EStateM.after_of_error hnames] at h

end Evaluator

/-! ### What a turn attributes -/

/-- **To which module the code of a turn is attributed.** From the one state to the other a node has
been evaluated. Every new function has been made by a task to which a trail leads; every export
statement that is reached is about the current module; and the frames of a report have the paths
that functions and modules have. -/
structure Eval.Attributes (host : Host) (limits : Limits) (n : Node) (scope : Ref .scope)
    (m m' : Machine) : Prop where
  functions {f : Ref .function} : m.world.store.functions.size ≤ f.index →
    f.index < m'.world.store.functions.size →
    ∃ t₀ m₀ a₀ depth t m₁ as m₂, Eval.Starts host limits n scope m t₀ m₀ a₀ ∧
      Evaluator.Trail host limits.rounds limits.depth t₀ m₀ [a₀] depth t m₁ as ∧ m₁.Onward m₂ ∧
      t.Makes m₂ as (m'.world.store.function f)
  exports {t₀ : Task} {m₀ m₁ : Machine} {a₀ : Activation} {depth : Nat} {own : Ref .scope}
      {line : Int} {names : List String} : Eval.Starts host limits n scope m t₀ m₀ a₀ →
    Evaluator.Reaches (Evaluator.load host) limits.rounds limits.depth t₀ m₀ (depth + 1)
      (.stmt own (.mk line (.exports names))) m₁ →
    ∃ as, Evaluator.Trail host limits.rounds limits.depth t₀ m₀ [a₀] (depth + 1)
        (.stmt own (.mk line (.exports names))) m₁ as ∧
      m₁.Exports own as names ((Evaluator.ofDepth (Evaluator.load host) limits.rounds
        (depth + 1)).stmt own (.mk line (.exports names)) m₁)
  frames {f : Fault} : m'.report.fault = some f →
    ∃ as, Eval.Located host limits n scope m f as m'.report.frames ∧
      ∀ a ∈ as, a.Sourced m'.world.store

namespace Eval

variable {host : Host} {limits : Limits} {n : Node} {scope : Ref .scope} {m : Machine}

theorem evaluate_attributes (host : Host) (limits : Limits) (n : Node) (scope : Ref .scope)
    (hidle : m.stack.frames = []) :
    Attributes host limits n scope m ((evaluate host limits n scope).after m) := by
  refine ⟨fun {f} hnew hlt => ?_, fun hstarts hreaches => ?_, evaluate_located hidle⟩
  · obtain ⟨hstarts, hchange⟩ := exists_altered
      (fun σ => f.index < σ.functions.size ∧ σ.functions.get f.index = _) hidle
      (fun hold => absurd hold.1 (Nat.not_lt.mpr hnew)) ⟨hlt, rfl⟩
    obtain ⟨htrail, hstands, _, halters, hnot, hmade, _⟩ := hchange
    obtain ⟨m₂, hm₂, hmakes⟩ := halters.makes hstands hnot hmade
    exact ⟨_, _, _, _, _, _, _, m₂, hstarts, htrail, hm₂, hmakes⟩
  · obtain ⟨a, as, htrail, hstands⟩ := hreaches.exists_trail hstarts.stands.1
    exact ⟨a :: as, htrail, Evaluator.exports_of_stands _ host limits.rounds hstands⟩

/-- A main program is evaluated at home, and no function has been made when it starts. -/
lemma atHome_of_opens {raw text : String} {m₁ : Machine} (h : host.Opens raw m text scope m₁) :
    m₁.world.store.functions = m.world.store.functions ∧
      ∃ r, Activation.AtHome m₁.world.store r [.ofNode (m₁.parsing text) scope] := by
  have hmade (path : String) :
      ((StoreM.newModuleAt path).after m.world.store).functions = m.world.store.functions :=
    (StoreM.newModuleAt_sameCode path _).functions
  rcases openModule_cases host raw (m.starting raw) with ⟨_, hopen⟩ | ⟨r, m₂, hopen, hm₂⟩
  · cases h.opened.symm.trans hopen
  · cases h.opened.symm.trans hopen
    refine ⟨?_, r, rfl, .refl⟩
    rcases hm₂ with rfl | rfl | ⟨path, _, rfl⟩
    · rfl
    · exact hmade ""
    · exact hmade path

/-- Of a main program nothing is attributed to a module, or it is evaluated at home. -/
theorem Ran.attributes {raw : String} {m' : Machine} (hran : Ran host limits raw m m')
    (hidle : m.stack.frames = []) :
    (m'.world.store.functions = m.world.store.functions ∧ m'.report.frames = []) ∨
      ∃ text own m₁ p r, host.Opens raw m text own m₁ ∧
        host.parse text m₁.modulePath = .program p ∧
        m₁.world.store.functions = m.world.store.functions ∧
        Activation.AtHome m₁.world.store r [.ofNode (m₁.parsing text) own] ∧
        Attributes host limits (.program p) own (m₁.parsing text) m' := by
  cases hran with
  | unread hframes _ => exact .inl ⟨rfl, hframes⟩
  | rejected hopen hframes _ => exact .inl ⟨(atHome_of_opens hopen).1, hframes⟩
  | @evaluated text own m₁ p _ _ hopen hparse =>
    obtain ⟨hfunctions, r, hr⟩ := atHome_of_opens hopen
    have hidle₁ : (m₁.parsing text).stack.frames = [] := (stack_of_opens hopen).symm ▸ hidle
    have hattributes := evaluate_attributes host limits (.program p) own hidle₁
    exact .inr ⟨text, own, m₁, p, r, hopen, hparse, hfunctions, hr, hattributes.functions,
      hattributes.exports, hattributes.frames⟩

end Eval

/-- **Code is attributed to the module that is current.** In every turn, every function that is made
is told the path of the current module, every export statement is about the exports of the current
module, and every frame of a report has the path that its function was told, or that of its module.
The current module is that of the innermost text. So what stands in the scope of a module is
attributed to this module if it is evaluated at home: so are texts, and so is a function exactly if
it is called while the module is current in whose scope it was made. -/
theorem Engine.code_is_attributed_to_current_module {strict : Bool} {p : Engine}
    (hp : p.Reachable strict) (i : Nat) (host : Host) (limits : Limits) :
    (∀ n scope, Eval.Attributes host limits n scope (p.machine i)
      ((Eval.evaluate host limits n scope).after (p.machine i))) ∧
    (∀ raw, let m' := (Eval.runFile host limits raw).after (p.machine i)
      (m'.world.store.functions = (p.machine i).world.store.functions ∧ m'.report.frames = []) ∨
        ∃ text own m₁ program r, host.Opens raw (p.machine i) text own m₁ ∧
          host.parse text m₁.modulePath = .program program ∧
          m₁.world.store.functions = (p.machine i).world.store.functions ∧
          Activation.AtHome m₁.world.store r [.ofNode (m₁.parsing text) own] ∧
          Eval.Attributes host limits (.program program) own (m₁.parsing text) m') ∧
    (∀ (t : Task) (m : Machine) (as : List Activation) (c : Closure), t.Makes m as c →
      ∀ r, Activation.AtHome m.world.store r as → c.path = (m.world.store.module r).path ∧
        m.world.store.Lies c.scope (m.world.store.module r).scope) ∧
    (∀ (m : Machine) (own : Ref .scope) (as : List Activation) (names : List String)
      (o : Outcome Value), m.Exports own as names o →
      ∀ r, Activation.AtHome m.world.store r as →
        m.world.store.Lies own (m.world.store.module r).scope ∧ Activation.current as = some r) ∧
    ∀ (s : Store) (r : Ref .module) (a : Activation) (as : List Activation), a.Sourced s →
      (a.code = .text r → Activation.AtHome s r (a :: as)) ∧
      ∀ f, a.code = .function f → (Activation.AtHome s r (a :: as) ↔
        Activation.current as = some r ∧ s.Lies (s.function f).scope (s.module r).scope) := by
  have hidle := hp.frames_eq_nil i
  refine ⟨fun n scope => Eval.evaluate_attributes host limits n scope hidle,
    fun raw => (Eval.runFile_ran host limits raw (p.machine i)).attributes hidle,
    fun t m as c h r => h.attributed, fun m own as names o h r => h.attributed,
    fun s r a as h => ⟨Activation.atHome_of_text h, fun f => Activation.atHome_of_function_iff h⟩⟩

section Attributed

/-- The text of `lib.wei`: the function `make` answers a function that fails on line 3. -/
private def makingProgram : Program :=
  ⟨[.mk 1 (.define (.mk (some "make") []
      [.mk 2 (.ret (some (.function (.mk none [] [.mk 3 (.eval (.name "ghost"))]))))])),
    .mk 4 (.exports ["make"])]⟩

/-- Another module loads `lib`, calls `make`, and calls what that answers. -/
private def callingProgram : Program :=
  ⟨[.mk 1 (.declare "m" (some (.load (.literal (.str "lib")))) false),
    .mk 2 (.declare "f" (some (.call (.attr (.name "m") "make") [])) false),
    .mk 9 (.eval (.call (.name "f") []))]⟩

/-- The host where `lib.wei` is the only file. -/
private def makingHost : Host :=
  ⟨(FileTree.empty ⟨["W"]⟩).write "lib.wei" (.file "?".toUTF8), fun _ _ => .program makingProgram,
    Text.line?⟩

/-- The first session has opened the module of `main.wei`. -/
private def callingStart : Engine :=
  ((Engine.initial.newSession false .standard none).turn 0
    (Eval.openModule makingHost "main.wei")).2

/-- The state when the program has been evaluated in the scope of that module. -/
private def callingEnd : Machine :=
  (Eval.evaluate makingHost ⟨20, 20⟩ (.program callingProgram) ⟨0⟩).after (callingStart.machine 0)

/-- Two functions are made. The first is made when the text of `lib.wei` is evaluated, and is told
the path of that. The frames of the fault in the second have their activations. -/
theorem Engine.attribution_of_functions_of_lib :
    (callingEnd.world.store.function ⟨0⟩).path = "/W/lib.wei" ∧
    (∀ f : Ref .function, f.index < 2 → ∃ t₀ m₀ a₀ depth t m₁ as m₂,
      Eval.Starts makingHost ⟨20, 20⟩ (.program callingProgram) ⟨0⟩ (callingStart.machine 0) t₀ m₀
        a₀ ∧
      Evaluator.Trail makingHost 20 20 t₀ m₀ [a₀] depth t m₁ as ∧ m₁.Onward m₂ ∧
      t.Makes m₂ as (callingEnd.world.store.function f)) ∧
    ∃ as, Eval.Located makingHost ⟨20, 20⟩ (.program callingProgram) ⟨0⟩ (callingStart.machine 0)
      (.undefinedName "ghost") as callingEnd.report.frames := by
  have hreachable : callingStart.Reachable true :=
    .openModule 0 makingHost "main.wei" (.newSession false .standard none .initial)
  have hattributes : Eval.Attributes makingHost ⟨20, 20⟩ (.program callingProgram) ⟨0⟩
      (callingStart.machine 0) callingEnd :=
    (Engine.code_is_attributed_to_current_module hreachable 0 makingHost ⟨20, 20⟩).1 _ _
  have hpath : (callingEnd.world.store.function ⟨0⟩).path = "/W/lib.wei" := by decide +kernel
  have hnone : (callingStart.machine 0).world.store.functions.size = 0 := by decide +kernel
  have htwo : callingEnd.world.store.functions.size = 2 := by decide +kernel
  have hfault : callingEnd.report.fault = some (.undefinedName "ghost") := by decide +kernel
  -- from here on it does not matter what the states are
  generalize callingEnd = m', callingStart.machine 0 = m at *
  refine ⟨hpath, fun f hf => hattributes.functions ?_ ?_, ?_⟩
  · rw [hnone]
    exact Nat.zero_le _
  · exact htwo.symm ▸ hf
  · obtain ⟨as, hlocated, _⟩ := hattributes.frames hfault
    exact ⟨as, hlocated⟩

/-- **A function of one module is attributed to another.** It was made in a scope that lies in that
of the module of `lib.wei`, by `make`, while the module of `main.wei` was current. The frame has
line 3 of the one file with the path of the other. -/
theorem Engine.function_of_lib_attributed_to_main :
    let s := callingEnd.world.store
    s.Lies (s.function ⟨1⟩).scope (s.module ⟨1⟩).scope ∧ (s.module ⟨1⟩).path = "/W/lib.wei" ∧
      (s.function ⟨1⟩).body.map Stmt.line = [3] ∧ (s.function ⟨1⟩).path = "/W/main.wei" ∧
      callingEnd.report.frames =
        [⟨"/W/main.wei", "<module>", 9⟩, ⟨"/W/main.wei", "<anonymous>", 3⟩] := by
  intro s
  have hscope : (s.function ⟨1⟩).scope = ⟨3⟩ ∧ (s.module ⟨1⟩).scope = ⟨1⟩ := by decide +kernel
  have hinner : (⟨3⟩ : Ref .scope).index < s.scopes.size ∧ (s.scope ⟨3⟩).outer = some ⟨2⟩ := by
    decide +kernel
  have houter : (⟨2⟩ : Ref .scope).index < s.scopes.size ∧ (s.scope ⟨2⟩).outer = some ⟨1⟩ := by
    decide +kernel
  refine ⟨?_, by decide +kernel, by decide +kernel, by decide +kernel, by decide +kernel⟩
  rw [hscope.1, hscope.2]
  exact .head hinner (.single houter)

end Attributed

end Wei
