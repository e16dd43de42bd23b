import Wei.Proofs.Frames
import Wei.Proofs.LoadingFailure
import Wei.Proofs.Propagation

/-!
What is left of a load that failed over its file, which could not be opened or did not parse.

An import makes its module when the file has been parsed, so one that fails before leaves nothing
behind but the report of it. Whatever a host does next comes to the same as if the attempt had never
been made, and the next import reads the file again. A main program makes its module when the file
has been read. If the text does not parse then, the module stays in the cache and stays current, and
imports of the file are answered with a module of which nothing has been evaluated.
-/

namespace Wei

/-! ### Opening the module of a file -/

namespace Machine

/-- The module that is found in the cache under a path, or else made there. -/
def moduleAt (m : Machine) (path : String) : Ref .module :=
  (m.world.cache.find? path).getD ⟨m.world.store.modules.size⟩

/-- The state when there is a module in the cache under a path. -/
def having (m : Machine) (path : String) : Machine :=
  if m.world.cache.contains path then m else m.addModule path

variable {m : Machine} {path : String}

lemma having_of_cached {r : Ref .module} (h : m.world.cache.find? path = some r) :
    m.having path = m ∧ m.moduleAt path = r := by
  constructor
  · exact if_pos (by simp [OrderedMap.contains, h])
  · rw [moduleAt, h]
    rfl

lemma having_of_new (h : m.world.cache.find? path = none) :
    m.having path = m.addModule path ∧ m.moduleAt path = ⟨m.world.store.modules.size⟩ := by
  constructor
  · exact if_neg (by simp [OrderedMap.contains, h])
  · rw [moduleAt, h]
    rfl

lemma find?_having (m : Machine) (path : String) :
    (m.having path).world.cache.find? path = some (m.moduleAt path) := by
  cases h : m.world.cache.find? path with
  | some r =>
    obtain ⟨hm, hr⟩ := having_of_cached h
    rw [hm, hr, h]
  | none =>
    obtain ⟨hm, hr⟩ := having_of_new h
    rw [hm, hr]
    exact OrderedMap.find?_insert_self ..

/-- Only the store and the cache can differ. -/
lemma having_eq (m : Machine) (path : String) :
    m.having path = { m with world := (m.having path).world } := by
  unfold having
  split <;> rfl

end Machine

namespace Eval

open EStateM

variable {host : Host} {raw text : String}

lemma moduleOfFile_eq (hnul : Path.hasNul raw = false) (m : Machine) :
    moduleOfFile host raw m = .ok (m.moduleAt (Path.reach host.files.cwd raw).text)
      (m.having (Path.reach host.files.cwd raw).text) := by
  have hget : (get : Eval Machine) m = .ok m m := rfl
  unfold moduleOfFile Path.resolve
  rw [if_neg (by simp [hnul]), orCrash_ok_bind, bind_of_ok hget]
  cases h : m.world.cache.find? (Path.reach host.files.cwd raw).text with
  | some r =>
    obtain ⟨hm, hr⟩ := Machine.having_of_cached h
    rw [hm, hr]
    rfl
  | none =>
    obtain ⟨hm, hr⟩ := Machine.having_of_new h
    rw [hm, hr]
    exact newCachedModule_of_new (by simp [OrderedMap.contains, h])

/-- **What a host comes to that opens the module of a file.** -/
lemma openModule_eq (host : Host) (hraw : raw.isEmpty = false) (hnul : Path.hasNul raw = false)
    (m : Machine) :
    ∃ scope, openModule host raw m = .ok scope
      { m.having (Path.reach host.files.cwd raw).text with
        module := some (m.moduleAt (Path.reach host.files.cwd raw).text) } := by
  unfold openModule
  rw [hraw, if_neg Bool.false_ne_true, bind_of_ok (moduleOfFile_eq hnul m)]
  exact ⟨_, rfl⟩

/-- The path of a file that has been read is not empty, and has no NUL character. -/
lemma raw_of_readText (h : host.files.readText raw = .ok (.ok text)) :
    raw.isEmpty = false ∧ Path.hasNul raw = false := by
  unfold FileTree.readText at h
  split at h
  · cases h
  · next hnul =>
    refine ⟨?_, by simpa using hnul⟩
    cases hraw : raw.isEmpty with
    | false => rfl
    | true =>
      have hbytes : host.files.bytes raw = .error .notFound := by
        unfold FileTree.bytes
        rw [if_pos hraw]
      rw [hbytes] at h
      cases h

end Eval

/-! ### States that tell nothing of the attempt -/

/-- The world, the current module, the frames and the memory of source files are what they were.
What was last reported can be something else. -/
structure Machine.Traceless (m m' : Machine) : Prop where
  world : m'.world = m.world
  module : m'.module = m.module
  stack : m'.stack = m.stack
  sources : m'.sources = m.sources
  verbose : m'.report.verbose = m.report.verbose

/-- The state before anything has been reported. -/
def Machine.forgetting (m : Machine) : Machine := { m with report := m.report.reset }

/-- The session before anything has been reported. -/
def Session.forgetting (s : Session) : Session := { s with report := s.report.reset }

/-- The two engines differ at most in what was reported last. -/
structure Engine.SameButReports (p q : Engine) : Prop where
  store : q.store = p.store
  caches (j : Nat) : q.caches.get j = p.caches.get j
  sources : q.sources = p.sources
  sessions (i : Nat) : (q.sessions.get i).forgetting = (p.sessions.get i).forgetting

namespace Eval

/-- The result, with the state before anything has been reported. -/
def forgetting {α : Type} : EStateM.Result Exit Machine α → EStateM.Result Exit Machine α
  | .ok a m => .ok a m.forgetting
  | .error e m => .error e m.forgetting

/-- What has been reported before does not matter. -/
def Heedless {α : Type} (x : Eval α) : Prop := ∀ m, forgetting (x m.forgetting) = forgetting (x m)

lemma evaluate_heedless (host : Host) (limits : Limits) (n : Node) (scope : Ref .scope) :
    (evaluate host limits n scope).Heedless := fun _ => rfl

lemma runFile_heedless (host : Host) (limits : Limits) (raw : String) :
    (runFile host limits raw).Heedless := fun _ => rfl

lemma openModule_heedless (host : Host) (raw : String) : (openModule host raw).Heedless := by
  intro m
  unfold openModule
  cases raw.isEmpty with
  | true =>
    rw [if_pos rfl, EStateM.bind_of_ok (onStore_newModuleAt "" m),
      EStateM.bind_of_ok (onStore_newModuleAt "" m.forgetting)]
    rfl
  | false =>
    rw [if_neg Bool.false_ne_true]
    cases hnul : Path.hasNul raw with
    | true =>
      have hfails (m : Machine) : moduleOfFile host raw m = .error (.crash .embeddedNul) m := by
        unfold moduleOfFile Path.resolve
        rw [if_pos hnul]
        rfl
      rw [EStateM.bind_of_error (hfails m), EStateM.bind_of_error (hfails m.forgetting)]
      rfl
    | false =>
      have hhaving (path : String) : m.forgetting.having path = (m.having path).forgetting := by
        unfold Machine.having
        rw [apply_ite Machine.forgetting]
        rfl
      rw [EStateM.bind_of_ok (moduleOfFile_eq hnul m),
        EStateM.bind_of_ok (moduleOfFile_eq hnul m.forgetting), hhaving]
      rfl

end Eval

namespace Engine

variable {p q : Engine} {α : Type}

lemma SameButReports.machine (h : p.SameButReports q) (i : Nat) :
    (q.machine i).forgetting = (p.machine i).forgetting := by
  have hs := h.sessions i
  simp only [Session.forgetting, Session.mk.injEq] at hs
  obtain ⟨hcache, hmodule, hstack, hreport, _⟩ := hs
  unfold Engine.machine Machine.forgetting
  dsimp only
  rw [h.store, h.caches, h.sources, hcache, hmodule, hstack, hreport]

lemma SameButReports.absorb (h : p.SameButReports q) {m m' : Machine}
    (hm : m'.forgetting = m.forgetting) (i : Nat) :
    (p.absorb i m).SameButReports (q.absorb i m') := by
  have hs := h.sessions i
  simp only [Session.forgetting, Session.mk.injEq] at hs
  simp only [Machine.forgetting, Machine.mk.injEq] at hm
  obtain ⟨hworld, hmodule, hstack, hreport, _, _, hsources⟩ := hm
  refine ⟨congrArg World.store hworld, fun j => ?_, hsources, fun j => ?_⟩
  · show (q.caches.set _ m'.world.cache).get j = (p.caches.set _ m.world.cache).get j
    rw [Arena.get_set, Arena.get_set, h.caches, hs.1, hworld]
  · show ((q.sessions.set i _).get j).forgetting = ((p.sessions.set i _).get j).forgetting
    rw [Arena.get_set, Arena.get_set]
    split
    · simp only [Session.forgetting, hs.1, hmodule, hstack, hreport, hs.2.2.2.2]
    · exact h.sessions j

/-- **What was reported last does not show in what hosts do next.** -/
lemma SameButReports.turn (h : p.SameButReports q) {x : Eval α} (hx : x.Heedless) (i : Nat) :
    (q.turn i x).1 = (p.turn i x).1 ∧ (p.turn i x).2.SameButReports (q.turn i x).2 := by
  have hsame : Eval.forgetting (x (q.machine i)) = Eval.forgetting (x (p.machine i)) := by
    rw [← hx (p.machine i), ← hx (q.machine i), h.machine]
  unfold Engine.turn
  cases hp : x (p.machine i) with
  | ok a m =>
    cases hq : x (q.machine i) with
    | error e m' =>
      rw [hp, hq] at hsame
      cases hsame
    | ok a' m' =>
      rw [hp, hq] at hsame
      obtain ⟨rfl, hm⟩ := EStateM.Result.ok.inj hsame
      have hturn := congrArg
        (fun m : Machine => (⟨.ok a', m.world.out, m.err, m.parsed⟩ : Turn α)) hm
      exact ⟨hturn, h.absorb hm i⟩
  | error e m =>
    cases hq : x (q.machine i) with
    | ok a m' =>
      rw [hp, hq] at hsame
      cases hsame
    | error e' m' =>
      rw [hp, hq] at hsame
      obtain ⟨rfl, hm⟩ := EStateM.Result.error.inj hsame
      have hturn := congrArg
        (fun m : Machine => (⟨.error e', m.world.out, m.err, m.parsed⟩ : Turn α)) hm
      exact ⟨hturn, h.absorb hm i⟩

/-- A turn that leaves no trace leaves the engine as it was. -/
lemma sameButReports_of_traceless {i : Nat} {x : Eval α}
    (h : (p.machine i).Traceless (x.after (p.machine i))) :
    p.SameButReports (p.turn i x).2 := by
  rw [turn_snd]
  refine ⟨congrArg World.store h.world, fun j => ?_, h.sources, fun j => ?_⟩
  · show (p.caches.set _ (x.after (p.machine i)).world.cache).get j = _
    rw [Arena.get_set, h.world]
    split
    · next hj =>
      subst hj
      rfl
    · rfl
  · show ((p.sessions.set i _).get j).forgetting = _
    rw [Arena.get_set]
    split
    · next hj =>
      subst hj
      simp only [Session.forgetting, Report.reset, h.module, h.stack, h.verbose]
      rfl
    · rfl

end Engine

/-! ### Imports that fail -/

/-- A fault that comes out of a node when no frame was there. -/
lemma Eval.evaluateOver_of_fault {parts : Evaluator} {n : Node} {scope : Ref .scope}
    {m m₁ : Machine} {f : Fault} (hidle : m.stack.frames = [])
    (h : node parts scope n
      { m.forgetting with stack := m.stack.push m.modulePath "<module>" } = .error (.fault f) m₁) :
    evaluateOver parts n scope m =
      .error (.fault f) { m₁.recordFault f with stack := m₁.stack.pop } := by
  have hbottom : evaluateOver parts n scope m = withFrame m.modulePath "<module>"
      (recording (boundingDepth (takingReturn (outsideLoops (node parts scope n)))))
      m.forgetting := if_pos (by simp [hidle])
  rw [hbottom]
  unfold withFrame recording boundingDepth takingReturn outsideLoops
  have hpush : { m.forgetting with stack := m.forgetting.stack.push m.modulePath "<module>" } =
    { m.forgetting with stack := m.stack.push m.modulePath "<module>" } := rfl
  rw [hpush, h]
  rfl

namespace Evaluator

variable {host : Host} {name path : String} {m : Machine}

/-- An import of a file that is of no use leaves no trace. -/
lemma load_traceless (parts : Evaluator) (hfind : host.find m.world.cache name = .file path)
    (h : host.Unusable path) :
    ∃ f m', load host parts name m = .error (.fault f) m' ∧ f.kind = .brokenModule ∧
      m.Traceless m' := by
  obtain ⟨f, hload, hf⟩ := load_eq_of_unusable parts hfind h
  exact ⟨f, _, hload, hf, rfl, rfl, rfl, rfl, rfl⟩

end Evaluator

/-- A host that has such an import evaluated, and nothing else, is left no trace either. -/
lemma Eval.import_traceless {host : Host} {limits : Limits} {scope : Ref .scope}
    {name path : String} {m : Machine} (hdepth : 2 ≤ limits.depth) (hidle : m.stack.frames = [])
    (hfind : host.find m.world.cache name = .file path) (h : host.Unusable path) :
    ∃ f m', Eval.evaluate host limits (.expr (.load (.literal (.str name)))) scope m =
      .error (.fault f) m' ∧ f.kind = .brokenModule ∧ m.Traceless m' := by
  obtain ⟨depth, hlimits⟩ := Nat.exists_eq_add_of_le' hdepth
  obtain ⟨f, m', hload, hf, htrace⟩ := Evaluator.load_traceless
    (.ofDepth (Evaluator.load host) limits.rounds (depth + 1))
    (m := { m.forgetting with stack := m.stack.push m.modulePath "<module>" }) hfind h
  have hnode : node (.ofDepth (Evaluator.load host) limits.rounds limits.depth) scope
      (.expr (.load (.literal (.str name))))
      { m.forgetting with stack := m.stack.push m.modulePath "<module>" } =
      .error (.fault f) m' := by
    rw [hlimits]
    exact (Evaluator.evalExpr_load_of_ok rfl).trans hload
  refine ⟨f, _, evaluateOver_of_fault hidle hnode, hf, htrace.world, htrace.module, ?_,
    htrace.sources, ?_⟩
  · show m'.stack.pop = m.stack
    rw [htrace.stack]
    rfl
  · show (m'.recordFault f).report.verbose = _
    exact (Report.verbose_record ..).trans htrace.verbose

/-- An import of a file that is of no use ends all that a host has evaluated, in the world as it is.
-/
lemma Eval.evaluate_of_unusable_import {host : Host} {limits : Limits} {n : Node}
    {scope scope' : Ref .scope} {depth : Nat} {t : Task} {e : Expr} {name path : String}
    {m m₀ m₁ m₂ : Machine}
    (hpart : (Evaluator.ofDepth (Evaluator.load host) limits.rounds limits.depth).Evaluates
      (fun ps => Eval.evaluateOver ps n scope) m t m₀)
    (hreach : Evaluator.Reaches (Evaluator.load host) limits.rounds limits.depth t m₀ (depth + 1)
      (.expr scope' (.load e)) m₁)
    (hname : (Evaluator.ofDepth (Evaluator.load host) limits.rounds depth).expr scope' e m₁ =
      .ok (.str name) m₂)
    (hfind : host.find m₂.world.cache name = .file path) (h : host.Unusable path) :
    ∃ f m', Eval.evaluate host limits n scope m = .error (.fault f) m' ∧ f.kind = .brokenModule ∧
      m'.world = m₂.world ∧ m.SamePlace m' := by
  obtain ⟨f, m₃, hload, hf, htrace⟩ := Evaluator.load_traceless
    (.ofDepth (Evaluator.load host) limits.rounds depth) hfind h
  have hfails : (Evaluator.ofDepth (Evaluator.load host) limits.rounds (depth + 1)).run
      (.expr scope' (.load e)) m₁ = .error (.fault f) m₃ :=
    (Evaluator.evalExpr_load_of_ok hname).trans hload
  obtain ⟨m₄, h₄, hm₄⟩ := hreach.cameUp hfails
  obtain ⟨m', h', hm'⟩ := hpart.evaluateOver_cameUp h₄
  have hends : Eval.evaluate host limits n scope m = .error (.fault f) m' := h'
  have hplace := Eval.evaluate_keepsPlace host limits n scope m
  rw [EStateM.after_of_error hends] at hplace
  obtain ⟨_, _, _, hbeside⟩ := hm₄.trans hm'
  refine ⟨f, m', hends, hf, ?_, hplace⟩
  rw [hbeside]
  exact htrace.world

/-! ### Main programs that fail -/

namespace Eval

variable {host : Host} {raw text : String} {m : Machine}

lemma runFile_traceless_of_refused {refusal : Refusal} (limits : Limits) (m : Machine)
    (hread : host.files.readText raw = .ok (.error refusal)) :
    ∃ f m', runFile host limits raw m = .error (.fault f) m' ∧ f.kind = .brokenModule ∧
      m.Traceless m' := by
  obtain ⟨f, err, hf, h⟩ := runFile_of_refused limits m hread
  exact ⟨f, _, h, hf, rfl, rfl, rfl, rfl, Report.verbose_record ..⟩

/-- The state when the file of a main program has been read and its module is open. -/
lemma opens_eq {scope : Ref .scope} {m₁ : Machine} (h : host.Opens raw m text scope m₁) :
    m₁ = { m.starting raw with
      world := (m.having (Path.reach host.files.cwd raw).text).world
      module := some (m.moduleAt (Path.reach host.files.cwd raw).text) } := by
  obtain ⟨hraw, hnul⟩ := raw_of_readText h.read
  obtain ⟨scope', hopen⟩ := openModule_eq host hraw hnul (m.starting raw)
  cases h.opened.symm.trans hopen
  have hworld (path : String) : ((m.starting raw).having path).world = (m.having path).world := by
    unfold Machine.having
    rw [apply_ite Machine.world, apply_ite Machine.world]
    rfl
  rw [Machine.having_eq, hworld]
  rfl

/-- A main program that does not parse leaves its module in the cache, and current. -/
lemma runFile_state_of_rejected {message : String} {scope : Ref .scope} {m₁ : Machine}
    (limits : Limits) (hopen : host.Opens raw m text scope m₁)
    (hparse : host.parse text m₁.modulePath = .syntaxError message) :
    ∃ f m', runFile host limits raw m = .error (.fault f) m' ∧ f.kind = .brokenModule ∧
      m'.world = (m.having (Path.reach host.files.cwd raw).text).world ∧
      m'.module = some (m.moduleAt (Path.reach host.files.cwd raw).text) ∧ m'.stack = m.stack ∧
      m'.sources = m.sources ∧ m'.report.verbose = m.report.verbose := by
  obtain ⟨f, err, hf, h⟩ := runFile_of_rejected limits hopen hparse
  obtain rfl := opens_eq hopen
  exact ⟨f, _, h, hf, rfl, rfl, rfl, rfl, Report.verbose_record ..⟩

end Eval

namespace Machine

variable {m m' : Machine} {path : String}

/-- A module that was not in the cache is a trace, and one that was not current is one too. -/
lemma traceless_iff_of_having (hworld : m'.world = (m.having path).world)
    (hmodule : m'.module = some (m.moduleAt path)) (hstack : m'.stack = m.stack)
    (hsources : m'.sources = m.sources) (hverbose : m'.report.verbose = m.report.verbose) :
    m.Traceless m' ↔
      m.world.cache.contains path = true ∧ m.module = some (m.moduleAt path) := by
  constructor
  · intro h
    refine ⟨?_, h.module.symm.trans hmodule⟩
    have hcache := m.find?_having path
    rw [← hworld, h.world] at hcache
    rw [OrderedMap.contains, hcache]
    rfl
  · rintro ⟨hcontains, hm⟩
    refine ⟨?_, hmodule.trans hm.symm, hstack, hsources, hverbose⟩
    rw [hworld, having, if_pos hcontains]

end Machine

/-- An import of a file whose module is in the cache by now is answered with it. -/
lemma Evaluator.load_of_having {host : Host} {parts : Evaluator} {name path : String}
    {m m' : Machine} (hfind : host.find m.world.cache name = .file path)
    (hworld : m'.world = (m.having path).world) :
    load host parts name m' = .ok (.module (m.moduleAt path)) m' := by
  obtain ⟨p, hp, hfile, rfl, _⟩ := Host.exists_of_find_eq_file hfind
  rw [load_eq, Host.find_of_isFile hp hfile, hworld, m.find?_having]

/-- **A load that fails over its file leaves no trace, but for a main program that does not parse.**
An import of a file that cannot be opened or parsed leaves world, current module and frames as they
were, and what it is a part of ends there and then, in that world. A main program whose file cannot
be opened leaves no trace either. After a turn without trace whatever hosts do comes to the same as
if the turn had not been taken: the next import reads the file again. A main program that does not
parse leaves the module of its path in the cache and current. That is no trace if and only if both
was so before; and if the module was not in the cache, imports of the file are answered with it. -/
theorem Engine.failed_load_leaves_no_trace_unless_opened (host : Host) :
    (∀ (parts : Evaluator) (name path : String) (m : Machine),
      host.find m.world.cache name = .file path → host.Unusable path →
      ∃ f m', Evaluator.load host parts name m = .error (.fault f) m' ∧ f.kind = .brokenModule ∧
        m.Traceless m') ∧
    (∀ (limits : Limits) (n : Node) (scope scope' : Ref .scope) (depth : Nat) (t : Task) (e : Expr)
      (name path : String) (m m₀ m₁ m₂ : Machine),
      (Evaluator.ofDepth (Evaluator.load host) limits.rounds limits.depth).Evaluates
        (fun ps => Eval.evaluateOver ps n scope) m t m₀ →
      Evaluator.Reaches (Evaluator.load host) limits.rounds limits.depth t m₀ (depth + 1)
        (.expr scope' (.load e)) m₁ →
      (Evaluator.ofDepth (Evaluator.load host) limits.rounds depth).expr scope' e m₁ =
        .ok (.str name) m₂ →
      host.find m₂.world.cache name = .file path → host.Unusable path →
      ∃ f m', Eval.evaluate host limits n scope m = .error (.fault f) m' ∧
        f.kind = .brokenModule ∧ m'.world = m₂.world ∧ m.SamePlace m') ∧
    (∀ (limits : Limits) (scope : Ref .scope) (name path : String) (m : Machine),
      2 ≤ limits.depth → m.stack.frames = [] → host.find m.world.cache name = .file path →
      host.Unusable path →
      ∃ f m', Eval.evaluate host limits (.expr (.load (.literal (.str name)))) scope m =
        .error (.fault f) m' ∧ f.kind = .brokenModule ∧ m.Traceless m') ∧
    (∀ (limits : Limits) (raw : String) (refusal : Refusal) (m : Machine),
      host.files.readText raw = .ok (.error refusal) →
      ∃ f m', Eval.runFile host limits raw m = .error (.fault f) m' ∧ f.kind = .brokenModule ∧
        m.Traceless m') ∧
    (∀ (p : Engine) (i : Nat) (x : Eval Value),
      (p.machine i).Traceless (x.after (p.machine i)) → p.SameButReports (p.turn i x).2) ∧
    (∀ (p q : Engine), p.SameButReports q → ∀ (i : Nat) (host : Host) (limits : Limits),
      (∀ raw, (q.turn i (Eval.openModule host raw)).1 = (p.turn i (Eval.openModule host raw)).1 ∧
        (p.turn i (Eval.openModule host raw)).2.SameButReports
          (q.turn i (Eval.openModule host raw)).2) ∧
      (∀ n scope, (q.turn i (Eval.evaluate host limits n scope)).1 =
          (p.turn i (Eval.evaluate host limits n scope)).1 ∧
        (p.turn i (Eval.evaluate host limits n scope)).2.SameButReports
          (q.turn i (Eval.evaluate host limits n scope)).2) ∧
      ∀ raw, (q.turn i (Eval.runFile host limits raw)).1 =
          (p.turn i (Eval.runFile host limits raw)).1 ∧
        (p.turn i (Eval.runFile host limits raw)).2.SameButReports
          (q.turn i (Eval.runFile host limits raw)).2) ∧
    ∀ (limits : Limits) (raw text message : String) (scope : Ref .scope) (m m₁ : Machine),
      host.Opens raw m text scope m₁ → host.parse text m₁.modulePath = .syntaxError message →
      let path := (Path.reach host.files.cwd raw).text
      ∃ f m', Eval.runFile host limits raw m = .error (.fault f) m' ∧ f.kind = .brokenModule ∧
        m'.stack = m.stack ∧ m'.module = some (m.moduleAt path) ∧
        m'.world.cache.find? path = some (m.moduleAt path) ∧
        (m.Traceless m' ↔
          m.world.cache.contains path = true ∧ m.module = some (m.moduleAt path)) ∧
        ∀ (parts : Evaluator) (name : String), host.find m.world.cache name = .file path →
          Evaluator.load host parts name m' = .ok (.module (m.moduleAt path)) m' := by
  refine ⟨fun parts name path m => Evaluator.load_traceless parts, ?_,
    fun limits scope name path m => Eval.import_traceless,
    fun limits raw refusal m => Eval.runFile_traceless_of_refused limits m,
    fun p i x => Engine.sameButReports_of_traceless, fun p q h i host limits => ?_, ?_⟩
  · intro limits n scope scope' depth t e name path m m₀ m₁ m₂ hpart hreach hname hfind h
    exact Eval.evaluate_of_unusable_import hpart hreach hname hfind h
  · exact ⟨fun raw => h.turn (Eval.openModule_heedless host raw) i,
      fun n scope => h.turn (Eval.evaluate_heedless host limits n scope) i,
      fun raw => h.turn (Eval.runFile_heedless host limits raw) i⟩
  · intro limits raw text message scope m m₁ hopen hparse path
    obtain ⟨f, m', h, hf, hworld, hmodule, hstack, hsources, hverbose⟩ :=
      Eval.runFile_state_of_rejected limits hopen hparse
    refine ⟨f, m', h, hf, hstack, hmodule, ?_,
      Machine.traceless_iff_of_having hworld hmodule hstack hsources hverbose,
      fun parts name hfind => Evaluator.load_of_having hfind hworld⟩
    rw [hworld]
    exact m.find?_having path

section Rejected

/-- The host where `a.wei` is the only file, and no text is a program. -/
private def rejectingHost : Host :=
  ⟨(FileTree.empty ⟨["W"]⟩).write "a.wei" (.file "?".toUTF8), fun _ _ => .syntaxError "",
    Text.line?⟩

/-- The first session has opened a module. -/
private def rejectedStart : Engine :=
  ((Engine.initial.newSession false .standard none).turn 0 (Eval.openModule rejectingHost "")).2

/-- The import of `a`. -/
private def importOfA : Eval Value :=
  Eval.evaluate rejectingHost .standard (.expr (.load (.literal (.str "a")))) ⟨0⟩

/-- The main program `a.wei`. -/
private def mainA : Eval Value := Eval.runFile rejectingHost .standard "a.wei"

/-- An import of a file that does not parse, which the next turns do not notice, and that file as a
main program, which makes a module that has not been there. -/
theorem Engine.failed_import_of_unparsable_file :
    (∃ f m', importOfA (rejectedStart.machine 0) = .error (.fault f) m' ∧ f.kind = .brokenModule ∧
      (rejectedStart.machine 0).Traceless m') ∧
    (∀ i limits n scope,
      ((rejectedStart.turn 0 importOfA).2.turn i (Eval.evaluate rejectingHost limits n scope)).1 =
        (rejectedStart.turn i (Eval.evaluate rejectingHost limits n scope)).1) ∧
    ∃ f m', mainA (rejectedStart.machine 0) = .error (.fault f) m' ∧ f.kind = .brokenModule ∧
      ¬ (rejectedStart.machine 0).Traceless m' := by
  obtain ⟨_, _, himport, _, hturn, hlater, hmain⟩ :=
    Engine.failed_load_leaves_no_trace_unless_opened rejectingHost
  have hfind : rejectingHost.find (rejectedStart.machine 0).world.cache "a" = .file "/W/a.wei" := by
    rfl
  have hread : rejectingHost.files.readText "/W/a.wei" = .ok (.ok "?") := by rfl
  have hmainRead : rejectingHost.files.readText "a.wei" = .ok (.ok "?") := by rfl
  have hidle : (rejectedStart.machine 0).stack.frames = [] := by rfl
  have hattempt := himport .standard ⟨0⟩ "a" "/W/a.wei" _ (by decide) hidle hfind
    (.rejected hread rfl)
  obtain ⟨scope, m₁, hopen, _⟩ := Eval.exists_opens hmainRead (rejectedStart.machine 0)
  obtain ⟨f, m', h, hf, _, _, _, htrace, _⟩ := hmain .standard _ _ _ _ _ _ hopen rfl
  have hnew : (rejectedStart.machine 0).world.cache.contains
      (Path.reach rejectingHost.files.cwd "a.wei").text = false := by rfl
  refine ⟨hattempt, fun i limits n scope => ?_, f, m', h, hf, fun hm' => ?_⟩
  · obtain ⟨f, m', h, _, hm'⟩ := hattempt
    have hafter : importOfA.after (rejectedStart.machine 0) = m' := EStateM.after_of_error h
    refine ((hlater _ _ (hturn _ 0 importOfA ?_) i rejectingHost limits).2.1 n scope).1
    rwa [hafter]
  · cases hnew.symm.trans (htrace.mp hm').1

/-- **The module of a main program that does not parse is handed out.** Before the attempt an import
of the file fails, for it does not parse. After it the import answers a module, and nothing is
parsed. -/
theorem Engine.rejected_main_program_is_imported :
    (rejectedStart.turn 0 importOfA).1.result.toOption = none ∧
    (rejectedStart.turn 0 importOfA).1.parsed = [("/W/a.wei", "?")] ∧
    (rejectedStart.turn 0 mainA).1.result.toOption = none ∧
    ((rejectedStart.turn 0 mainA).2.sessions.get 0).module ≠
      (rejectedStart.sessions.get 0).module ∧
    ((rejectedStart.turn 0 mainA).2.turn 0 importOfA).1.result.toOption =
      some (.module ⟨1⟩) ∧
    ((rejectedStart.turn 0 mainA).2.turn 0 importOfA).1.parsed = [] := by
  decide +kernel

end Rejected

end Wei
