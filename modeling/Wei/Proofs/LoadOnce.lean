import Wei.Proofs.ImportChain
import Wei.Proofs.Tidy

/-!
Modules load once. The keys of a cache are the paths of the modules in it, no entry is ever replaced
or taken away, and an import of a path that has a module answers that module and does nothing else.
So in the life of a cache, in however many sessions that share it, imports evaluate the text at a
path once at most, and those that they evaluate inside of each other are different ones.
-/

namespace Wei

/-! ### Keys are paths -/

namespace Store

/-- The keys of the cache are the paths of the modules in it. -/
def Keyed (s : Store) (cache : ModuleCache) : Prop :=
  ∀ path r, cache.find? path = some r → r.Live s.census ∧ (s.module r).path = path

variable {strict : Bool} {s s' : Store}

/-- A module stays where its file is. -/
lemma Edit.module_path (h : Edit strict s s') {r : Ref .module} (hr : r.Live s.census) :
    (s'.module r).path = (s.module r).path := by
  cases h with
  | newModule => exact congrArg Module.path (Arena.get_push_of_ne _ _ (Nat.ne_of_lt hr))
  | @exportName r' x =>
    show ((s.modules.set r'.index _).get r.index).path = _
    rw [Arena.get_set]
    split
    · next heq =>
      show (s.modules.get r'.index).path = _
      rw [heq]
      rfl
    · rfl
  | _ => rfl

lemma keyed_law (strict : Bool) : Law strict Store.Keyed where
  initial := nofun
  blank _ := nofun
  edit h hs hk path r hr := by
    obtain ⟨hlive, hpath⟩ := hk path r hr
    exact ⟨hlive.mono (h.census_le hs), (h.module_path hlive).trans hpath⟩
  cacheModule {s c path r} hlive hpath _ hk path' r' hr' := by
    rw [OrderedMap.find?_insert] at hr'
    split at hr'
    · next heq =>
      cases hr'
      exact ⟨hlive, hpath.trans heq⟩
    · exact hk path' r' hr'

end Store

/-! ### Caches grow at their ends -/

namespace Machine

lemma Step.grows {strict : Bool} {m m' : Machine} (h : Step strict m m') :
    m.world.cache.Grows m'.world.cache := by
  cases h with
  | edit _ => exact .refl _
  | print _ => exact .refl _
  | cacheModule _ _ hnew => exact OrderedMap.grows_insert hnew _
  | aside hw _ =>
    rw [hw]

/-- At all times during a turn. -/
lemma Run.grows {strict : Bool} {m m' : Machine} (h : Run strict m m') :
    m.world.cache.Grows m'.world.cache := by
  induction h with
  | refl => exact .refl _
  | tail _ hstep ih => exact ih.trans hstep.grows

/-- From `m` to `m'` a main program is run. Before it starts, in `m₁`, its module may come into the
cache and its text is parsed. From then on only loading adds to the cache. -/
structure RunsMain (host : Host) (m m₁ m' : Machine) : Prop where
  grows : m.world.cache.Grows m₁.world.cache
  loads : m₁.Loads host m'
  parsed : (∃ text, m₁.parsed = m.parsed ++ [text]) ∨
    m₁.parsed = m.parsed ∧ m'.parsed = m.parsed

end Machine

namespace Eval

open EStateM

/-- A host that opens a module has nothing parsed. -/
lemma openModule_grows (host : Host) (raw : String) (m : Machine) :
    m.world.cache.Grows ((openModule host raw).after m).world.cache ∧
      ((openModule host raw).after m).parsed = m.parsed := by
  rcases openModule_cases host raw m with ⟨_, h⟩ | ⟨r, m₁, h, hm₁⟩
  · rw [after_of_error h]
    exact ⟨.refl _, rfl⟩
  · rw [after_of_ok h]
    rcases hm₁ with rfl | rfl | ⟨path, hnew, rfl⟩
    · exact ⟨.refl _, rfl⟩
    · exact ⟨.refl _, rfl⟩
    · exact ⟨OrderedMap.grows_insert hnew _, rfl⟩

lemma after_onSources {α : Type} (y : SourceM α) (m : Machine) :
    ∃ sources, (onSources y).after m = { m with sources := sources } := by
  unfold EStateM.after onSources
  cases y m.sources <;> exact ⟨_, rfl⟩

/-- A complaint goes to the console, and sources may be looked at for it. -/
lemma after_complain (host : Host) (m : Machine) :
    ∃ sources err, (complain host).after m = { m with sources := sources, err := err } := by
  have hget : (get : Eval Machine) m = .ok m m := rfl
  obtain ⟨sources, hsources⟩ :=
    after_onSources (SourceM.traceback host.reader host.files m.report) m
  have htrace : (trace host).after m = { m with sources := sources } :=
    (after_bind_of_ok hget).trans hsources
  unfold complain
  rw [after_bind_of_ok hget]
  split
  · exact ⟨m.sources, m.err, rfl⟩
  · rcases after_bind_cases (trace host) _ m with h | ⟨text, _, h⟩
    · rw [h, htrace]
      exact ⟨sources, m.err, rfl⟩
    · rw [h, htrace]
      exact ⟨sources, _, rfl⟩

lemma mainProgram_runsMain (host : Host) (limits : Limits) (raw : String) (m : Machine) :
    ∃ m₁, m.RunsMain host m₁ ((mainProgram host limits raw).after m) := by
  have heq := mainProgram_eq host limits raw m
  rcases hread : host.files.readText raw with c | refusal | text
  · rw [hread] at heq
    rw [after_of_error heq]
    exact ⟨m, .refl _, .of_eq rfl rfl, .inr ⟨rfl, rfl⟩⟩
  · rw [hread] at heq
    rw [after_of_error heq]
    exact ⟨m, .refl _, .of_eq rfl rfl, .inr ⟨rfl, rfl⟩⟩
  · have hgrows := openModule_grows host raw m
    cases hopen : openModule host raw m with
    | error e m₁ =>
      rw [hread, hopen] at heq
      rw [after_of_error hopen] at hgrows
      rw [after_of_error heq]
      exact ⟨m₁, hgrows.1, .of_eq rfl rfl, .inr ⟨hgrows.2, hgrows.2⟩⟩
    | ok scope m₁ =>
      have htext := mainProgram_of_text limits hread hopen
      rw [after_of_ok hopen] at hgrows
      refine ⟨m₁.parsing text, hgrows.1, ?_, .inl ⟨(m₁.modulePath, text), ?_⟩⟩
      · cases hparse : host.parse text m₁.modulePath with
        | crash c =>
          rw [hparse] at htext
          rw [after_of_error htext]
          exact .of_eq rfl rfl
        | syntaxError message =>
          rw [hparse] at htext
          rw [after_of_error htext]
          exact .of_eq rfl rfl
        | program p =>
          rw [hparse] at htext
          rw [EStateM.after, htext]
          exact evaluate_loads host limits (.program p) scope (m₁.parsing text)
      · rw [Machine.parsing, hgrows.2]

lemma runFile_runsMain (host : Host) (limits : Limits) (raw : String) (m : Machine) :
    ∃ m₁, m.RunsMain host m₁ ((runFile host limits raw).after m) := by
  obtain ⟨m₁, hgrows, hloads, hparsed⟩ := mainProgram_runsMain host limits raw (m.starting raw)
  have hsame : (runFile host limits raw).after m =
      (complaining host (mainProgram host limits raw)).after (m.starting raw) := rfl
  rcases after_complaining host (mainProgram host limits raw) (m.starting raw) with h | h
  · rw [hsame, h]
    exact ⟨m₁, hgrows, hloads, hparsed⟩
  · obtain ⟨sources, err, hcomplain⟩ :=
      after_complain host ((mainProgram host limits raw).after (m.starting raw))
    rw [hsame, h, hcomplain]
    exact ⟨m₁, hgrows, hloads.trans (.of_eq rfl rfl), hparsed⟩

end Eval

namespace Engine

variable {p q : Engine} {α : Type}

/-- Other caches than that of the session stay as they are. -/
lemma get_caches_turn (p : Engine) (i : Nat) (x : Eval α) (j : Nat) :
    (p.turn i x).2.caches.get j =
      if (p.sessions.get i).cache = j then (x.after (p.machine i)).world.cache
      else p.caches.get j := by
  rw [turn_snd]
  exact Arena.get_set ..

lemma parsed_turn (p : Engine) (i : Nat) (x : Eval α) :
    (p.turn i x).1.parsed = (x.after (p.machine i)).parsed := by
  unfold turn EStateM.after
  cases x (p.machine i) <;> rfl

lemma grows_turn {i : Nat} {x : Eval α}
    (hx : (p.machine i).world.cache.Grows (x.after (p.machine i)).world.cache) (j : Nat) :
    (p.caches.get j).Grows ((p.turn i x).2.caches.get j) := by
  rw [get_caches_turn]
  split
  · next h =>
    subst h
    exact hx
  · exact .refl _

/-- **Whatever a host does, entries stay in the caches.** -/
lemma Step.grows (h : p.Step q) (j : Nat) : (p.caches.get j).Grows (q.caches.get j) := by
  cases h with
  | newSession verbose limits cache =>
    show (p.caches.get j).Grows ((if cache.isNone then p.caches.push .empty else p.caches).get j)
    split
    · rw [Arena.get_push]
      split
      · next hj =>
        rw [Arena.get_of_size_le _ (by omega)]
        exact .refl _
      · exact .refl _
    · exact .refl _
  | openModule i host raw => exact grows_turn (Eval.openModule_grows host raw _).1 j
  | evaluate i host limits n scope =>
    exact grows_turn (Eval.evaluate_loads host limits n scope _).grows j
  | runFile i host limits raw =>
    obtain ⟨m₁, hmain⟩ := Eval.runFile_runsMain host limits raw (p.machine i)
    exact grows_turn (hmain.grows.trans hmain.loads.grows) j

lemma Leads.grows (h : p.Leads q) (j : Nat) : (p.caches.get j).Grows (q.caches.get j) := by
  induction h with
  | refl => exact .refl _
  | tail _ hstep ih => exact ih.trans (hstep.grows j)

/-! ### The life of a cache -/

/-- The paths of the programs among the texts that were parsed in a turn of a session, if it uses
the cache. -/
def imported (p : Engine) (c i : Nat) (host : Host) (texts : List (String × String)) :
    List String :=
  if (p.sessions.get i).cache = c then host.programs texts else []

/-- What hosts have done so far, with the paths of the texts that imports have evaluated in the
sessions that use a cache, in this order. The first text of a file that is run is that of the main
program, which nobody imports. -/
inductive History (c : Nat) : Engine → List String → Prop
  | initial : History c .initial []
  | newSession {p : Engine} {paths : List String} (verbose : Bool) (limits : Limits)
      (cache : Option Nat) : History c p paths → History c (p.newSession verbose limits cache) paths
  | openModule {p : Engine} {paths : List String} (i : Nat) (host : Host) (raw : String) :
    History c p paths → History c (p.turn i (Eval.openModule host raw)).2 paths
  | evaluate {p : Engine} {paths : List String} (i : Nat) (host : Host) (limits : Limits) (n : Node)
      (scope : Ref .scope) : History c p paths →
    History c (p.turn i (Eval.evaluate host limits n scope)).2
      (paths ++ p.imported c i host (p.turn i (Eval.evaluate host limits n scope)).1.parsed)
  | runFile {p : Engine} {paths : List String} (i : Nat) (host : Host) (limits : Limits)
      (raw : String) : History c p paths →
    History c (p.turn i (Eval.runFile host limits raw)).2
      (paths ++ p.imported c i host ((p.turn i (Eval.runFile host limits raw)).1.parsed.drop 1))

/-- No path comes twice, and each has its module in the cache. -/
structure Listed (p : Engine) (c : Nat) (paths : List String) : Prop where
  nodup : paths.Nodup
  cached : ∀ path ∈ paths, (p.caches.get c).contains path = true

lemma Listed.mono {c : Nat} {paths : List String} (h : p.Listed c paths)
    (hpq : (p.caches.get c).Grows (q.caches.get c)) : q.Listed c paths :=
  ⟨h.nodup, fun path hpath => hpq.contains (h.cached path hpath)⟩

/-- A turn adds paths that were not in the cache before. -/
lemma Listed.turn {c i : Nat} {paths : List String} (h : p.Listed c paths) {x : Eval α}
    {host : Host} {m₁ : Machine} {texts : List (String × String)}
    {added : List (String × Ref .module)} (hgrows : (p.machine i).world.cache.Grows m₁.world.cache)
    (hadded : (x.after (p.machine i)).world.cache.entries = m₁.world.cache.entries ++ added)
    (htexts : added.map (·.1) = host.programs texts) :
    (p.turn i x).2.Listed c (paths ++ p.imported c i host texts) := by
  unfold imported
  split
  · next hc =>
    subst hc
    have hcache : (p.turn i x).2.caches.get (p.sessions.get i).cache =
        (x.after (p.machine i)).world.cache := by
      rw [get_caches_turn, if_pos rfl]
    have hkeys : (x.after (p.machine i)).world.cache.keys =
        m₁.world.cache.keys ++ host.programs texts := by
      rw [← htexts, OrderedMap.keys, hadded, List.map_append]
      rfl
    have hbefore (path : String) (hpath : path ∈ paths) : path ∈ m₁.world.cache.keys :=
      (OrderedMap.contains_iff ..).mp (hgrows.contains (h.cached path hpath))
    have hnodup := (x.after (p.machine i)).world.cache.nodup
    rw [← OrderedMap.keys, hkeys] at hnodup
    obtain ⟨_, hnew, hapart⟩ := List.nodup_append.mp hnodup
    refine ⟨List.nodup_append.mpr ⟨h.nodup, hnew, fun a ha => hapart a (hbefore a ha)⟩, ?_⟩
    intro path hpath
    rw [hcache, OrderedMap.contains_iff, hkeys]
    exact List.mem_append.mpr ((List.mem_append.mp hpath).imp_left (hbefore path))
  · next hc =>
    rw [List.append_nil]
    refine h.mono ?_
    rw [get_caches_turn, if_neg hc]

/-- **In the life of a cache imports evaluate the text at a path once at most.** -/
theorem History.listed {c : Nat} {paths : List String} (h : History c p paths) :
    p.Listed c paths := by
  induction h with
  | initial => exact ⟨List.nodup_nil, nofun⟩
  | newSession verbose limits cache _ ih =>
    exact ih.mono ((Step.newSession verbose limits cache).grows c)
  | openModule i host raw _ ih => exact ih.mono ((Step.openModule i host raw).grows c)
  | @evaluate p paths i host limits n scope _ ih =>
    obtain ⟨texts, added, hparsed, hadded, htexts⟩ :=
      Eval.evaluate_loads host limits n scope (p.machine i)
    rw [parsed_turn, hparsed]
    exact ih.turn (.refl _) hadded htexts
  | @runFile p paths i host limits raw _ ih =>
    obtain ⟨m₁, hgrows, ⟨texts, added, hparsed, hadded, htexts⟩, hmain⟩ :=
      Eval.runFile_runsMain host limits raw (p.machine i)
    have hdrop : (p.turn i (Eval.runFile host limits raw)).1.parsed.drop 1 = texts := by
      rw [parsed_turn]
      rcases hmain with ⟨t, hmain⟩ | ⟨hmain, hnone⟩
      · rw [hparsed, hmain]
        rfl
      · rw [hmain, hnone] at hparsed
        rw [hnone]
        exact (List.append_cancel_left (hparsed.symm.trans (List.append_nil _).symm)).symm
    rw [hdrop]
    exact ih.turn hgrows hadded htexts

/-- **Modules load once.** In every state that hosts can bring about, and at all times during a
turn, the keys of a cache are the paths of the modules in it, and entries are neither replaced nor
taken away. An import of a file whose path is in the cache answers the module that is there and does
nothing else; any other import evaluates nothing, or it evaluates the program of a path that was not
in the cache and has its module there. So in the life of a cache the text at a path is evaluated by
imports once at most, in all sessions together. And whatever comes to be evaluated for a host, the
texts around it have different paths, each has its frame on the stack, and there are no more of them
than files. -/
theorem modules_load_once :
    (∀ p : Engine, p.Reachable false → (∀ j, p.store.Keyed (p.caches.get j)) ∧
      ∀ i m, Machine.Run false (p.machine i) m → m.world.store.Keyed m.world.cache) ∧
    ((∀ p q : Engine, p.Leads q → ∀ j, (p.caches.get j).Grows (q.caches.get j)) ∧
      ∀ m m', Machine.Run false m m' → m.world.cache.Grows m'.world.cache) ∧
    (∀ (host : Host) (parts : Evaluator) (name : String) (m : Machine) (path : Path)
      (r : Ref .module), Path.ofModuleName host.files.cwd name = .ok path →
      host.files.isFile path = true → m.world.cache.find? path.text = some r →
      Evaluator.load host parts name m = .ok (.module r) m) ∧
    (∀ (host : Host) (name : String) (m : Machine),
      ((∀ parts other, Evaluator.load host parts name m = Evaluator.load host other name m) ∧
        ∀ parts, ((Evaluator.load host parts name).after m).world.cache = m.world.cache) ∨
      ∃ path p, (host.read path).2 = .ok p ∧ m.world.cache.contains path = false ∧
        ∀ parts, Evaluator.load host parts name m =
          parts.moduleText ⟨m.world.store.modules.size⟩ path ⟨m.world.store.scopes.size⟩ p
            ((m.reading host path).addModule path)) ∧
    (∀ (c : Nat) (p : Engine) (paths : List String), History c p paths →
      paths.Nodup ∧ ∀ path ∈ paths, (p.caches.get c).contains path = true) ∧
    ∀ (host : Host) (limits : Limits) (n : Node) (scope : Ref .scope) (depth : Nat) (t t' : Task)
      (m m₁ m' : Machine),
      (Evaluator.ofDepth (Evaluator.load host) limits.rounds limits.depth).Evaluates
        (fun ps => Eval.evaluateOver ps n scope) m t m₁ →
      Evaluator.Reaches (Evaluator.load host) limits.rounds limits.depth t m₁ depth t' m' →
      (∃ paths, Evaluator.Importing (Evaluator.load host) limits.rounds limits.depth t m₁ paths
        depth t' m') ∧
      ∀ paths, Evaluator.Importing (Evaluator.load host) limits.rounds limits.depth t m₁ paths
        depth t' m' → m.Nests host paths m' ∧ paths.length ≤ host.files.entries.size := by
  have law := Store.keyed_law false
  refine ⟨fun p hp => ⟨fun j => law.reachable hp j, fun i m hm => ?_⟩,
    ⟨fun p q h j => h.grows j, fun m m' h => Machine.Run.grows h⟩,
    fun host parts name m path r hpath hfile hr => ?_, fun host name m => ?_,
    fun c p paths h => ⟨h.listed.nodup, h.listed.cached⟩, ?_⟩
  · exact law.run hm (hp.sound.machine i) (law.reachable hp _)
  · rw [Evaluator.load_eq, Host.find_of_isFile hpath hfile, hr]
  · rcases Evaluator.load_cases host name m with ⟨⟨m', _, _, hcache, hafter⟩, hsame⟩ |
      ⟨path, p, _, hread, hnew, hload⟩
    · refine .inl ⟨hsame, fun parts => ?_⟩
      rw [hafter]
      exact hcache
    · exact .inr ⟨path, p, hread, hnew, hload⟩
  · intro host limits n scope depth t t' m m₁ m' hpart hreach
    refine ⟨hreach.exists_importing, fun paths h => ?_⟩
    have hnests : m.Nests host paths m' := .part hpart.evaluateOver_inside h.nests
    exact ⟨hnests, hnests.length_le⟩

section Cycle

/-- The tree of `import(name)`. -/
private def importOf (name : String) : Expr := .load (.literal (.str name))

/-- Two modules that import each other. -/
private def cycleHost : Host where
  files := ((FileTree.empty ⟨[]⟩).write "a.wei" (.file "a".toUTF8)).write "b.wei"
    (.file "b".toUTF8)
  parse text _ := .program ⟨[.mk 1 (.eval (importOf (if text = "a" then "b" else "a")))]⟩
  reader := Text.line?

/-- Two sessions that share a cache. The first has opened a module. -/
private def cycleStart : Engine :=
  (((Engine.initial.newSession false .standard none).newSession false .standard (some 0)).turn 0
    (Eval.openModule cycleHost "")).2

/-- The first session has imported `a`. -/
private def cycleNext : Engine :=
  (cycleStart.turn 0 (Eval.evaluate cycleHost ⟨9, 1⟩ (.expr (importOf "a")) ⟨0⟩)).2

/-- The second session has imported `b`. -/
private def cycleLast : Engine :=
  (cycleNext.turn 1 (Eval.evaluate cycleHost ⟨9, 1⟩ (.expr (importOf "b")) ⟨0⟩)).2

private lemma cycleLast_history : History 0 cycleLast ["/a.wei", "/b.wei"] := by
  have h : History 0 cycleStart [] :=
    .openModule 0 cycleHost "" (.newSession false .standard (some 0)
      (.newSession false .standard none .initial))
  have hpaths : [] ++ cycleStart.imported 0 0 cycleHost (cycleStart.turn 0
        (Eval.evaluate cycleHost ⟨9, 1⟩ (.expr (importOf "a")) ⟨0⟩)).1.parsed ++
      cycleNext.imported 0 1 cycleHost (cycleNext.turn 1
        (Eval.evaluate cycleHost ⟨9, 1⟩ (.expr (importOf "b")) ⟨0⟩)).1.parsed =
      ["/a.wei", "/b.wei"] := by decide +kernel
  rw [← hpaths]
  exact .evaluate 1 cycleHost ⟨9, 1⟩ _ _ (.evaluate 0 cycleHost ⟨9, 1⟩ _ _ h)

/-- The state in which the import of `a` is evaluated. -/
private def atImport : Machine :=
  { cycleStart.machine 0 with stack := ⟨[⟨"", "<module>", 0⟩]⟩, report := .blank false }

/-- The state in which the text of `a` starts. -/
private def atText : Machine :=
  { (atImport.reading cycleHost "/a.wei").addModule "/a.wei" with
    module := some ⟨1⟩
    stack := atImport.stack.push "/a.wei" "<module>" }

/-- The state in which its first statement is evaluated. -/
private def atStmt : Machine := { atText with stack := atText.stack.setLine 1 }

/-- The first statement of `a`. -/
private def importStmt : Stmt := .mk 1 (.eval (importOf "b"))

private lemma evaluates_import :
    (Evaluator.ofDepth (Evaluator.load cycleHost) 1 9).Evaluates
      (fun ps => Eval.evaluateOver ps (.expr (importOf "a")) ⟨0⟩) (cycleStart.machine 0)
      (.expr ⟨0⟩ (importOf "a")) atImport := by
  refine Evaluator.evaluates_of_unfinished ⟨{ atImport with stack := ⟨[]⟩ }, ?_⟩ fun m' h => ?_
  · have h : ((Evaluator.ofDepth (Evaluator.load cycleHost) 1 9).givingUp
        (.expr ⟨0⟩ (importOf "a")) atImport).expr ⟨0⟩ (importOf "a") atImport =
        .error .unfinished atImport := if_pos rfl
    generalize Evaluator.givingUp _ _ _ = q at h ⊢
    have hnode : Eval.evaluateOver q (.expr (importOf "a")) ⟨0⟩ (cycleStart.machine 0) =
        Eval.withFrame "" "<module>" (Eval.recording (Eval.boundingDepth (Eval.takingReturn
          (Eval.outsideLoops (q.expr ⟨0⟩ (importOf "a")))))) { atImport with stack := ⟨[]⟩ } := rfl
    rw [hnode]
    unfold Eval.withFrame Eval.recording Eval.boundingDepth Eval.takingReturn Eval.outsideLoops
    have hpush : { ({ atImport with stack := ⟨[]⟩ } : Machine) with
        stack := CallStack.push ⟨[]⟩ "" "<module>" } = atImport := rfl
    simp only [hpush, h]
    rfl
  · have hanswers : (Eval.evaluateOver (Evaluator.ofDepth (Evaluator.load cycleHost) 1 9)
        (.expr (importOf "a")) ⟨0⟩).answers (cycleStart.machine 0) = true := by decide +kernel
    exact EStateM.ne_error_of_answers hanswers _ _ h

private lemma evaluates_text :
    (Evaluator.ofDepth (Evaluator.load cycleHost) 1 8).Evaluates
      (fun ps => (ps.deepen (Evaluator.load cycleHost) 1).run (.expr ⟨0⟩ (importOf "a"))) atImport
      (.stmt ⟨1⟩ importStmt) atStmt := by
  refine Evaluator.evaluates_of_unfinished ?_ fun m' h => ?_
  · have hname : ((Evaluator.ofDepth (Evaluator.load cycleHost) 1 8).givingUp
        (.stmt ⟨1⟩ importStmt) atStmt).expr ⟨0⟩ (.literal (.str "a")) atImport =
        .ok (.str "a") atImport := if_neg nofun
    have hstmt : ((Evaluator.ofDepth (Evaluator.load cycleHost) 1 8).givingUp
        (.stmt ⟨1⟩ importStmt) atStmt).stmt ⟨1⟩ importStmt atStmt =
        .error .unfinished atStmt := if_pos rfl
    generalize Evaluator.givingUp _ _ _ = q at hname hstmt ⊢
    have hexecute : q.execute ⟨1⟩ importStmt atText = .error .unfinished atStmt := by
      refine (EStateM.bind_of_ok (show Eval.atLine 1 atText = .ok () atStmt from rfl)).trans ?_
      unfold Eval.recording
      rw [hstmt]
    have hsequence : q.sequence ⟨1⟩ .null [importStmt] atText = .error .unfinished atStmt :=
      EStateM.bind_of_error hexecute
    have hprogram : q.program ⟨1⟩ ⟨[importStmt]⟩ atText = .error .unfinished atStmt := by
      unfold Evaluator.program Eval.takingReturn Eval.outsideLoops
      rw [hsequence]
    have hload : Evaluator.load cycleHost q "a" atImport = q.moduleText ⟨1⟩ "/a.wei" ⟨1⟩
        ⟨[importStmt]⟩ ((atImport.reading cycleHost "/a.wei").addModule "/a.wei") := by
      have hfind : cycleHost.find atImport.world.cache "a" = .file "/a.wei" := rfl
      have hread : (cycleHost.read "/a.wei").2 = .ok ⟨[importStmt]⟩ := rfl
      rw [Evaluator.load_eq, hfind]
      dsimp only
      rw [hread]
      exact Evaluator.runModule_of_new (m := atImport.reading cycleHost "/a.wei") rfl _
    have htext : q.moduleText ⟨1⟩ "/a.wei" ⟨1⟩ ⟨[importStmt]⟩
        ((atImport.reading cycleHost "/a.wei").addModule "/a.wei") =
        .error .unfinished { atStmt with module := atImport.module, stack := atStmt.stack.pop } :=
      Evaluator.moduleText_of_error hprogram
    exact ⟨_, (EStateM.bind_of_ok hname).trans (hload.trans htext)⟩
  · have hanswers : (((Evaluator.ofDepth (Evaluator.load cycleHost) 1 8).deepen
        (Evaluator.load cycleHost) 1).run (.expr ⟨0⟩ (importOf "a"))).answers atImport = true := by
      decide +kernel
    exact EStateM.ne_error_of_answers hanswers _ _ h

/-- Of two modules that import each other, one is imported by one session and the other by another
that shares the cache. Each text has been evaluated once. While the text of the first was being
evaluated, its frame was on the stack. -/
theorem cycle_loads_once :
    (cycleLast.Reachable false ∧ cycleLast.store.Keyed (cycleLast.caches.get 0)) ∧
    (History 0 cycleLast ["/a.wei", "/b.wei"] ∧
      ∀ path ∈ ["/a.wei", "/b.wei"], (cycleLast.caches.get 0).contains path = true) ∧
    Evaluator.Importing (Evaluator.load cycleHost) 1 9 (.expr ⟨0⟩ (importOf "a")) atImport
        ["/a.wei"] 8 (.stmt ⟨1⟩ importStmt) atStmt ∧
      (cycleStart.machine 0).Nests cycleHost ["/a.wei"] atStmt := by
  obtain ⟨hkeyed, _, _, _, honce, hnests⟩ := modules_load_once
  have hstart : cycleStart.Reachable false :=
    .openModule 0 cycleHost "" (.newSession false .standard (some 0)
      (.newSession false .standard none .initial))
  have hnext : cycleNext.Reachable false :=
    .evaluate 0 ⟨9, 1⟩ hstart (fun _ _ _ _ => .of_lax _) (.of_lax _) Nat.zero_lt_one
  have hscope : 0 < cycleNext.store.scopes.size := by decide +kernel
  have hlast : cycleLast.Reachable false :=
    .evaluate 1 ⟨9, 1⟩ hnext (fun _ _ _ _ => .of_lax _) (.of_lax _) hscope
  have himporting : Evaluator.Importing (Evaluator.load cycleHost) 1 9
      (.expr ⟨0⟩ (importOf "a")) atImport ["/a.wei"] 8 (.stmt ⟨1⟩ importStmt) atStmt :=
    .text evaluates_text trivial List.suffix_rfl (.self ..)
  have hall := (hnests cycleHost ⟨9, 1⟩ _ _ 8 _ _ _ _ _ evaluates_import
    (.part evaluates_text (.self ..))).2
  exact ⟨⟨hlast, (hkeyed _ hlast).1 0⟩,
    ⟨cycleLast_history, (honce _ _ _ cycleLast_history).2⟩, himporting, (hall _ himporting).1⟩

end Cycle

end Engine

end Wei
