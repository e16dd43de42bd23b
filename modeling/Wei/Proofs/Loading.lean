import Wei.Proofs.After

/-!
What loading comes to, without the steps in which it gets there.

Under a name a host finds nothing that could be read, or a module that is in the cache already, or a
file. Of a file comes a program or a failure, and only then is a module made of it: the module comes
into the cache, under a path that had none before, and the program is evaluated as its text.
-/

namespace Wei

/-- What a host finds under a name. -/
inductive Host.Found where
  /-- There is no file to be read. -/
  | nowhere (e : Exit)
  /-- The module of the file is in the cache. -/
  | cached (r : Ref .module)
  /-- There is a file of which no module has been made. -/
  | file (path : String)

namespace Host

/-- What a host finds under a name, if these are the modules in the cache. -/
def find (host : Host) (cache : ModuleCache) (name : String) : Found :=
  match Path.ofModuleName host.files.cwd name with
  | .error c => .nowhere (.crash c)
  | .ok path =>
    if host.files.isFile path then
      match cache.find? path.text with
      | some r => .cached r
      | none => .file path.text
    else .nowhere (.fault (.moduleNotFound name))

/-- What comes of the file at a path, with the texts that are parsed for it. -/
def read (host : Host) (path : String) : List (String × String) × Except Exit Program :=
  match host.files.readText path with
  | .error c => ([], .error (.crash c))
  | .ok (.error refusal) => ([], .error (.fault (.unreadableModule path refusal.reason)))
  | .ok (.ok text) =>
    ([(path, text)], match host.parse text path with
      | .crash c => .error (.crash c)
      | .syntaxError message => .error (.fault (.unparsableModule path message))
      | .program p => .ok p)

variable {host : Host} {cache : ModuleCache} {name path : String}

lemma find_of_isFile {p : Path} (hp : Path.ofModuleName host.files.cwd name = .ok p)
    (hfile : host.files.isFile p = true) :
    host.find cache name = match cache.find? p.text with
      | some r => .cached r
      | none => .file p.text := by
  unfold find
  rw [hp]
  exact if_pos hfile

/-- A file that is found is there, and no module has been made of it. -/
lemma exists_of_find_eq_file (h : host.find cache name = .file path) :
    ∃ p, Path.ofModuleName host.files.cwd name = .ok p ∧ host.files.isFile p = true ∧
      path = p.text ∧ cache.contains path = false := by
  unfold find at h
  cases hp : Path.ofModuleName host.files.cwd name with
  | error c => simp [hp] at h
  | ok p =>
    cases hfile : host.files.isFile p with
    | false => simp [hp, hfile] at h
    | true =>
      cases hc : cache.find? p.text with
      | some r => simp [hp, hfile, hc] at h
      | none =>
        obtain rfl : p.text = path := by simpa [hp, hfile, hc] using h
        exact ⟨p, rfl, hfile, rfl, by simp [OrderedMap.contains, hc]⟩

/-- A program comes of one text. -/
lemma exists_of_read_eq_ok {p : Program} (h : (host.read path).2 = .ok p) :
    ∃ text, (host.read path).1 = [(path, text)] ∧ host.parse text path = .program p := by
  unfold read at h ⊢
  split at h
  · cases h
  · cases h
  · next text _ =>
    cases hparse : host.parse text path with
    | program p' =>
      rw [hparse] at h
      cases h
      exact ⟨text, rfl, hparse⟩
    | _ =>
      rw [hparse] at h
      cases h

end Host

namespace Machine

/-- The state when the file at a path has been read. -/
def reading (m : Machine) (host : Host) (path : String) : Machine :=
  { m with
    err := m.err ++ m.report.info ["Loading", path]
    parsed := m.parsed ++ (host.read path).1 }

/-- The state when the text of the current module has been parsed. -/
def parsing (m : Machine) (text : String) : Machine :=
  { m with parsed := m.parsed ++ [(m.modulePath, text)] }

/-- The state in which the file of a main program is read. -/
def starting (m : Machine) (raw : String) : Machine :=
  { m with report := m.report.reset, err := m.err ++ m.report.info ["Loading", raw] }

/-- The state when a module has been made that is in the cache under its path. -/
def addModule (m : Machine) (path : String) : Machine :=
  { m with
    world.store := (StoreM.newModuleAt path).after m.world.store
    world.cache := m.world.cache.insert path ⟨m.world.store.modules.size⟩ }

end Machine

namespace Eval

open EStateM

lemma readProgram_eq (host : Host) (path : String) (m : Machine) :
    readProgram host path m =
      match (host.read path).2 with
      | .ok p => .ok p { m with parsed := m.parsed ++ (host.read path).1 }
      | .error e => .error e { m with parsed := m.parsed ++ (host.read path).1 } := by
  unfold readProgram Host.read
  have hm : { m with parsed := m.parsed ++ [] } = m := by rw [List.append_nil]
  rcases host.files.readText path with c | refusal | text
  · rw [hm]
    rfl
  · rw [hm]
    rfl
  · rw [orCrash_ok_bind]
    dsimp only
    rw [parse_bind]
    cases host.parse text path <;> rfl

lemma newCachedModule_of_new {path : String} {m : Machine}
    (h : m.world.cache.contains path = false) :
    newCachedModule path m = .ok ⟨m.world.store.modules.size⟩ (m.addModule path) := by
  have hadd : m.world.cache.add path ⟨m.world.store.modules.size⟩ =
      .ok (m.world.cache.insert path ⟨m.world.store.modules.size⟩) := if_neg (by simp [h])
  unfold newCachedModule
  rw [bind_of_ok (onStore_newModuleAt path m)]
  refine (bind_of_ok rfl).trans ?_
  rw [hadd]
  rfl

end Eval

namespace Evaluator

/-- Evaluates a program as the text of a module. -/
def moduleText (parts : Evaluator) (r : Ref .module) (path : String) (scope : Ref .scope)
    (p : Program) : Eval Value := do
  let _ ← Eval.withModule r (Eval.withFrame path "<module>" (parts.program scope p))
  pure (.module r)

/-- What a text comes to hangs on the program in the frame of the module. -/
lemma moduleText_congr {parts other : Evaluator} {r : Ref .module} {path : String}
    {scope : Ref .scope} {p : Program} {m : Machine}
    (h : parts.program scope p { m with module := some r, stack := m.stack.push path "<module>" } =
      other.program scope p { m with module := some r, stack := m.stack.push path "<module>" }) :
    parts.moduleText r path scope p m = other.moduleText r path scope p m := by
  have hframe : Eval.withModule r (Eval.withFrame path "<module>" (parts.program scope p)) m =
      Eval.withModule r (Eval.withFrame path "<module>" (other.program scope p)) m := by
    unfold Eval.withModule Eval.withFrame
    dsimp only
    rw [h]
  show EStateM.bind _ _ m = EStateM.bind _ _ m
  unfold EStateM.bind
  rw [hframe]

/-- The frame is taken off and the module left if the program exits. -/
lemma moduleText_of_error {parts : Evaluator} {r : Ref .module} {path : String}
    {scope : Ref .scope} {p : Program} {m m' : Machine} {e : Exit}
    (h : parts.program scope p { m with module := some r, stack := m.stack.push path "<module>" } =
      .error e m') :
    parts.moduleText r path scope p m =
      .error e { m' with module := m.module, stack := m'.stack.pop } := by
  refine EStateM.bind_of_error ?_
  unfold Eval.withModule Eval.withFrame
  dsimp only
  rw [h]

/-- Makes a module at a path and evaluates a program as its text. -/
def runModule (parts : Evaluator) (path : String) (p : Program) : Eval Value := do
  let r ← Eval.newCachedModule path
  parts.moduleText r path ((← Eval.store).module r).scope p

/-- **What an import comes to.** -/
theorem load_eq (host : Host) (parts : Evaluator) (name : String) (m : Machine) :
    load host parts name m =
      match host.find m.world.cache name with
      | .nowhere e => .error e m
      | .cached r => .ok (.module r) m
      | .file path =>
        match (host.read path).2 with
        | .error e => .error e (m.reading host path)
        | .ok p => parts.runModule path p (m.reading host path) := by
  unfold load Host.find
  cases Path.ofModuleName host.files.cwd name with
  | error c => rfl
  | ok path =>
    rw [Eval.orCrash_ok_bind]
    cases hfile : host.files.isFile path with
    | false =>
      rw [if_pos (by rfl)]
      simp only [hfile, Bool.false_eq_true, if_false]
      rfl
    | true =>
      rw [if_neg (by simp)]
      simp only [hfile, if_true]
      refine (EStateM.bind_of_ok rfl).trans ?_
      cases m.world.cache.find? path.text with
      | some r => rfl
      | none =>
        refine (EStateM.bind_of_ok rfl).trans ?_
        have hread := Eval.readProgram_eq host path.text
          { m with err := m.err ++ m.report.info ["Loading", path.text] }
        dsimp only
        cases h : (host.read path.text).2 with
        | error e =>
          rw [h] at hread
          exact EStateM.bind_of_error hread
        | ok p =>
          rw [h] at hread
          exact EStateM.bind_of_ok hread

/-- The module is in the cache when its text is evaluated. -/
lemma runModule_of_new {parts : Evaluator} {path : String} {m : Machine}
    (h : m.world.cache.contains path = false) (p : Program) :
    parts.runModule path p m =
      parts.moduleText ⟨m.world.store.modules.size⟩ path ⟨m.world.store.scopes.size⟩ p
        (m.addModule path) := by
  have hscope : ((m.addModule path).world.store.module ⟨m.world.store.modules.size⟩).scope =
      ⟨m.world.store.scopes.size⟩ := by
    show (((StoreM.newModuleAt path).after m.world.store).module ⟨_⟩).scope = _
    rw [EStateM.after_of_ok (StoreM.newModuleAt_eq path m.world.store)]
    exact congrArg Module.scope (Arena.get_push_size ..)
  unfold runModule
  rw [EStateM.bind_of_ok (Eval.newCachedModule_of_new h)]
  refine (EStateM.bind_of_ok rfl).trans ?_
  rw [hscope]

end Evaluator

/-! ### Modules of the host -/

/-- An import, if its name is written in characters. -/
lemma Evaluator.evalExpr_load_of_ok {parts : Evaluator} {load : Loader} {scope : Ref .scope}
    {e : Expr} {name : String} {m m₁ : Machine}
    (hname : parts.expr scope e m = .ok (.str name) m₁) :
    parts.evalExpr load scope (.load e) m = load parts name m₁ := by
  refine (EStateM.bind_of_ok hname).trans ?_
  show (Eval.orCrash (Text.encode name) >>= fun x => load parts x) m₁ = _
  rw [Text.encode_ofString, Eval.orCrash_ok_bind]

namespace Eval

open EStateM

lemma moduleOfFile_cases (host : Host) (raw : String) (m : Machine) :
    (Path.hasNul raw = true ∧ moduleOfFile host raw m = .error (.crash .embeddedNul) m) ∨
      ∃ r m₁, moduleOfFile host raw m = .ok r m₁ ∧
        (m₁ = m ∨ ∃ path, m.world.cache.contains path = false ∧ m₁ = m.addModule path) := by
  unfold moduleOfFile Path.resolve
  by_cases hnul : Path.hasNul raw = true
  · rw [if_pos hnul]
    exact .inl ⟨hnul, rfl⟩
  · have hget : (get : Eval Machine) m = .ok m m := rfl
    rw [if_neg hnul, orCrash_ok_bind, bind_of_ok hget]
    right
    cases hc : m.world.cache.find? (Path.reach host.files.cwd raw).text with
    | some r => exact ⟨r, m, rfl, .inl rfl⟩
    | none =>
      have hnew : m.world.cache.contains (Path.reach host.files.cwd raw).text = false := by
        simp [OrderedMap.contains, hc]
      exact ⟨_, _, newCachedModule_of_new hnew, .inr ⟨_, hnew, rfl⟩⟩

/-- A host that opens a module makes it, unless it is in the cache. Only of a path that has none
does a module come into the cache. -/
lemma openModule_cases (host : Host) (raw : String) (m : Machine) :
    (Path.hasNul raw = true ∧ openModule host raw m = .error (.crash .embeddedNul) m) ∨
      ∃ r m₁, openModule host raw m =
          .ok (m₁.world.store.module r).scope { m₁ with module := some r } ∧
        (m₁ = m ∨ m₁ = { m with world.store := (StoreM.newModuleAt "").after m.world.store } ∨
          ∃ path, m.world.cache.contains path = false ∧ m₁ = m.addModule path) := by
  unfold openModule
  cases raw.isEmpty with
  | true =>
    rw [if_pos rfl, bind_of_ok (onStore_newModuleAt "" m)]
    refine .inr ⟨⟨m.world.store.modules.size⟩, ?_⟩
    exact ⟨{ m with world.store := (StoreM.newModuleAt "").after m.world.store }, rfl,
      .inr (.inl rfl)⟩
  | false =>
    rw [if_neg Bool.false_ne_true]
    rcases moduleOfFile_cases host raw m with ⟨hnul, h⟩ | ⟨r, m₁, h, hm₁⟩
    · exact .inl ⟨hnul, bind_of_error h⟩
    · exact .inr ⟨r, m₁, bind_of_ok h, hm₁.imp_right .inr⟩

/-- **What the file of a main program comes to.** Its module is opened before its text is parsed. -/
theorem mainProgram_eq (host : Host) (limits : Limits) (raw : String) (m : Machine) :
    mainProgram host limits raw m =
      match host.files.readText raw with
      | .error c => .error (.crash c) m
      | .ok (.error refusal) => faultNowhere (.unreadableModule raw refusal.reason) m
      | .ok (.ok text) =>
        match openModule host raw m with
        | .error e m₁ => .error e m₁
        | .ok scope m₁ =>
          match host.parse text m₁.modulePath with
          | .crash c => .error (.crash c) (m₁.parsing text)
          | .syntaxError message =>
            faultNowhere (.unparsableModule raw message) (m₁.parsing text)
          | .program p => evaluate host limits (.program p) scope (m₁.parsing text) := by
  unfold mainProgram
  rcases host.files.readText raw with c | refusal | text
  · rfl
  · rfl
  · rw [orCrash_ok_bind]
    dsimp only
    cases h : openModule host raw m with
    | error e m₁ => exact bind_of_error h
    | ok scope m₁ =>
      rw [bind_of_ok h]
      refine (bind_of_ok rfl).trans ?_
      rw [parse_bind]
      dsimp only
      cases host.parse text m₁.modulePath <;> rfl

lemma mainProgram_of_text {host : Host} {raw text : String} {m m₁ : Machine} {scope : Ref .scope}
    (limits : Limits) (hread : host.files.readText raw = .ok (.ok text))
    (hopen : openModule host raw m = .ok scope m₁) :
    mainProgram host limits raw m =
      match host.parse text m₁.modulePath with
      | .crash c => .error (.crash c) (m₁.parsing text)
      | .syntaxError message => faultNowhere (.unparsableModule raw message) (m₁.parsing text)
      | .program p => evaluate host limits (.program p) scope (m₁.parsing text) := by
  rw [mainProgram_eq, hread]
  dsimp only
  rw [hopen]

lemma runFile_eq (host : Host) (limits : Limits) (raw : String) (m : Machine) :
    runFile host limits raw m = complaining host (mainProgram host limits raw) (m.starting raw) :=
  rfl

end Eval

end Wei
