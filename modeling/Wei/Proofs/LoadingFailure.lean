import Wei.Proofs.Loading

/-!
What goes wrong when a file is loaded, by an import or as a main program.

A name that has no file, a file that cannot be opened and a text that does not parse are faults, and
their kinds tell them from other faults. Not so a name with a NUL character and a file whose bytes
are no text: over these the host fails. There is nothing else about a name or a file over which it
could fail. What is left are the failures of the program that comes of the file, and those of the
traceback that a main program leaves.
-/

namespace Wei

/-- Why the host fails over the file at a written path. -/
inductive FileTree.Garbled (t : FileTree) (raw : String) : Crash → Prop
  /-- Nobody can look for the file. -/
  | nul : Path.hasNul raw = true → Garbled t raw .embeddedNul
  /-- The file holds bytes that are no text. -/
  | bytes {bytes : ByteArray} : Path.hasNul raw = false → t.bytes raw = .ok bytes →
    String.fromUTF8? bytes = none → Garbled t raw .undecodable

lemma FileTree.readText_eq_error_iff {t : FileTree} {raw : String} {c : Crash} :
    t.readText raw = .error c ↔ t.Garbled raw c := by
  unfold readText
  constructor
  · intro h
    split at h
    · next hnul =>
      cases h
      exact .nul hnul
    · next hnul =>
      split at h
      · cases h
      · next bytes hbytes =>
        split at h
        · next hutf =>
          cases h
          exact .bytes (by simpa using hnul) hbytes hutf
        · cases h
  · rintro (hnul | ⟨hnul, hbytes, hutf⟩)
    · rw [if_pos hnul]
    · rw [if_neg (by simp [hnul]), hbytes]
      dsimp only
      rw [hutf]

namespace Path

lemma hasNul_sourceName (name : String) : hasNul (sourceName name) = hasNul name := by
  have hsuffix : sourceSuffix.toList.contains (Char.ofNat 0) = false := by decide
  unfold sourceName hasNul
  split
  · rfl
  · rw [String.toList_append, List.contains_append, hsuffix, Bool.or_false]

lemma ofModuleName_eq (cwd : Path) (name : String) :
    ofModuleName cwd name =
      if hasNul name then .error .embeddedNul else .ok (reach cwd (sourceName name)) := by
  rw [ofModuleName, resolve, hasNul_sourceName]

end Path

/-! ### Imports -/

namespace Host

/-- Why the host fails over an import, before anything is evaluated. -/
inductive Stumbles (host : Host) (cache : ModuleCache) (name : String) : Crash → Prop
  | name : Path.hasNul name = true → Stumbles host cache name .embeddedNul
  | file {path : String} {c : Crash} : host.find cache name = .file path →
    host.files.Garbled path c → Stumbles host cache name c

/-- The file at a path cannot be opened, or its text does not parse. -/
inductive Unusable (host : Host) (path : String) : Prop
  | refused {refusal : Refusal} : host.files.readText path = .ok (.error refusal) →
    Unusable host path
  | rejected {text message : String} : host.files.readText path = .ok (.ok text) →
    host.parse text path = .syntaxError message → Unusable host path

variable {host : Host} {cache : ModuleCache} {name path : String}

lemma find_eq_nowhere_crash_iff {c : Crash} :
    host.find cache name = .nowhere (.crash c) ↔ Path.hasNul name = true ∧ c = .embeddedNul := by
  unfold find
  rw [Path.ofModuleName_eq]
  cases Path.hasNul name with
  | true => simp [eq_comm]
  | false =>
    simp only [Bool.false_eq_true, if_false, false_and, iff_false]
    split
    · split <;> (intro h; cases h)
    · intro h
      cases h

lemma read_eq_crash_iff (hparse : ∀ text path c, host.parse text path ≠ .crash c) {c : Crash} :
    (host.read path).2 = .error (.crash c) ↔ host.files.Garbled path c := by
  rw [← FileTree.readText_eq_error_iff]
  unfold read
  rcases host.files.readText path with c' | refusal | text
  · simp
  · simp
  · have := hparse text path
    cases h : host.parse text path with
    | crash c' => exact absurd h (this c')
    | _ => simp [h]

lemma Unusable.exists_fault (h : host.Unusable path) :
    ∃ f, (host.read path).2 = .error (.fault f) ∧ f.kind = .brokenModule := by
  unfold read
  rcases h with @⟨refusal, h⟩ | @⟨text, message, h, hparse⟩
  · rw [h]
    exact ⟨_, rfl, rfl⟩
  · rw [h]
    simp only [hparse]
    exact ⟨_, rfl, rfl⟩

end Host

namespace Evaluator

variable {host : Host} {parts : Evaluator} {name path : String} {m : Machine}

/-- The host fails over the name or the file of an import, or over the program that comes of it. -/
lemma load_crash_iff (hparse : ∀ text path c, host.parse text path ≠ .crash c) {c : Crash} :
    (∃ m', load host parts name m = .error (.crash c) m') ↔
      host.Stumbles m.world.cache name c ∨
        ∃ path p, host.find m.world.cache name = .file path ∧ (host.read path).2 = .ok p ∧
          ∃ m', parts.runModule path p (m.reading host path) = .error (.crash c) m' := by
  rw [load_eq]
  constructor
  · rintro ⟨m', h⟩
    split at h
    · next e hfind =>
      cases h
      obtain ⟨hnul, rfl⟩ := Host.find_eq_nowhere_crash_iff.mp hfind
      exact .inl (.name hnul)
    · cases h
    · next path hfind =>
      split at h
      · next e hread =>
        cases h
        exact .inl (.file hfind ((Host.read_eq_crash_iff hparse).mp hread))
      · next p hread => exact .inr ⟨path, p, hfind, hread, m', h⟩
  · rintro ((hnul | ⟨hfind, hgarbled⟩) | ⟨path, p, hfind, hread, h⟩)
    · rw [Host.find_eq_nowhere_crash_iff.mpr ⟨hnul, rfl⟩]
      exact ⟨_, rfl⟩
    · rw [hfind]
      dsimp only
      rw [(Host.read_eq_crash_iff hparse).mpr hgarbled]
      exact ⟨_, rfl⟩
    · rw [hfind]
      dsimp only
      rw [hread]
      exact h

lemma load_of_missing (hnul : Path.hasNul name = false)
    (hfile : host.files.isFile (Path.reach host.files.cwd (Path.sourceName name)) = false) :
    load host parts name m = .error (.fault (.moduleNotFound name)) m := by
  have hfind : host.find m.world.cache name = .nowhere (.fault (.moduleNotFound name)) := by
    unfold Host.find
    rw [Path.ofModuleName_eq, hnul]
    simp only [Bool.false_eq_true, if_false, hfile]
  rw [load_eq, hfind]

/-- The import reads the file, and that is all it does. -/
lemma load_eq_of_unusable (parts : Evaluator) (hfind : host.find m.world.cache name = .file path)
    (h : host.Unusable path) :
    ∃ f, load host parts name m = .error (.fault f) (m.reading host path) ∧
      f.kind = .brokenModule := by
  obtain ⟨f, hread, hf⟩ := h.exists_fault
  refine ⟨f, ?_, hf⟩
  rw [load_eq, hfind]
  dsimp only
  rw [hread]

lemma load_of_unusable (hfind : host.find m.world.cache name = .file path)
    (h : host.Unusable path) :
    ∃ f m', load host parts name m = .error (.fault f) m' ∧ f.kind = .brokenModule := by
  obtain ⟨f, hload, hf⟩ := load_eq_of_unusable parts hfind h
  exact ⟨f, _, hload, hf⟩

end Evaluator

/-! ### Main programs -/

/-- The file of a main program has been read, and its module is open. -/
structure Host.Opens (host : Host) (raw : String) (m : Machine) (text : String)
    (scope : Ref .scope) (m₁ : Machine) : Prop where
  read : host.files.readText raw = .ok (.ok text)
  opened : Eval.openModule host raw (m.starting raw) = .ok scope m₁

/-- The file of a main program cannot be opened, or its text does not parse. -/
inductive Host.UnusableMain (host : Host) (raw : String) (m : Machine) : Prop
  | refused {refusal : Refusal} : host.files.readText raw = .ok (.error refusal) →
    UnusableMain host raw m
  | rejected {text message : String} {scope : Ref .scope} {m₁ : Machine} :
    host.Opens raw m text scope m₁ → host.parse text m₁.modulePath = .syntaxError message →
    UnusableMain host raw m

namespace Eval

open EStateM

variable {host : Host} {limits : Limits} {raw text : String} {m : Machine}

/-- The module of a file that has been read can be opened. -/
lemma exists_opens (h : host.files.readText raw = .ok (.ok text)) (m : Machine) :
    ∃ scope m₁, host.Opens raw m text scope m₁ ∧ m₁.report = m.report.reset := by
  rcases openModule_cases host raw (m.starting raw) with ⟨hnul, _⟩ | ⟨r, m₁, hopen, hm₁⟩
  · cases h.symm.trans (FileTree.readText_eq_error_iff.mpr (.nul hnul))
  · refine ⟨_, _, ⟨h, hopen⟩, ?_⟩
    rcases hm₁ with rfl | rfl | ⟨path, _, rfl⟩ <;> rfl

/-- The host cannot fail over the traceback of a fault that no frame has to do with, and looks at no
file for it. -/
lemma complain_of_no_frames (host : Host) (hm : m.report.frames = []) :
    ∃ err, complain host m = .ok () { m with err := err } := by
  unfold complain
  rw [bind_of_ok (show (get : Eval Machine) m = .ok m m from rfl)]
  cases hf : m.report.fault with
  | none =>
    rw [if_pos (by simp [Report.ok, hf])]
    exact ⟨m.err, rfl⟩
  | some f =>
    have htrace : ∃ text, trace host m = .ok text m := by
      unfold trace
      rw [bind_of_ok (show (get : Eval Machine) m = .ok m m from rfl)]
      unfold onSources SourceM.traceback
      rw [hf, hm]
      exact ⟨_, rfl⟩
    obtain ⟨text, htrace⟩ := htrace
    rw [if_neg (by simp [Report.ok, hf]), bind_of_ok htrace]
    exact ⟨_, rfl⟩

/-- Complaining looks at the outcome only. -/
lemma complaining_congr {α : Type} {x y : Eval α} {m m' : Machine} (h : x m = y m') :
    complaining host x m = complaining host y m' := by
  unfold complaining
  rw [h]

/-- A fault that no frame has to do with is answered. -/
lemma complaining_faultNowhere {α : Type} {x : Eval α} {f : Fault} {m₁ : Machine} (host : Host)
    (hx : x m = faultNowhere f m₁) (hm : m₁.report.fault = none) :
    ∃ err, complaining host x m =
      .error (.fault f) { m₁ with report := m₁.report.record f [], err := err } := by
  have hframes : (m₁.report.record f []).frames = [] := by
    unfold Report.record
    rw [hm]
  have hfault : x m = .error (.fault f) { m₁ with report := m₁.report.record f [] } := hx
  obtain ⟨err, h⟩ := complain_of_no_frames host
    (show ({ m₁ with report := m₁.report.record f [] } : Machine).report.frames = [] from hframes)
  refine ⟨err, ?_⟩
  unfold complaining
  rw [hfault]
  dsimp only
  rw [h]

/-- A main program whose file cannot be opened ends before anything else happens. -/
lemma runFile_of_refused {refusal : Refusal} (limits : Limits) (m : Machine)
    (hread : host.files.readText raw = .ok (.error refusal)) :
    ∃ f err, f.kind = .brokenModule ∧ runFile host limits raw m =
      .error (.fault f)
        { m.starting raw with report := m.report.reset.record f [], err := err } := by
  have hmain : mainProgram host limits raw (m.starting raw) =
      faultNowhere (.unreadableModule raw refusal.reason) (m.starting raw) := by
    rw [mainProgram_eq, hread]
  obtain ⟨err, h⟩ := complaining_faultNowhere host hmain rfl
  exact ⟨_, err, rfl, h⟩

/-- A main program whose text does not parse ends when its module is open. -/
lemma runFile_of_rejected {message : String} {scope : Ref .scope} {m₁ : Machine} (limits : Limits)
    (hopen : host.Opens raw m text scope m₁)
    (hparse : host.parse text m₁.modulePath = .syntaxError message) :
    ∃ f err, f.kind = .brokenModule ∧ runFile host limits raw m = .error (.fault f)
      { m₁.parsing text with report := m.report.reset.record f [], err := err } := by
  have hmain : mainProgram host limits raw (m.starting raw) =
      faultNowhere (.unparsableModule raw message) (m₁.parsing text) := by
    rw [mainProgram_of_text limits hopen.read hopen.opened, hparse]
  have hreport : (m₁.parsing text).report = m.report.reset := by
    obtain ⟨scope', m₂, hopen', hm₂⟩ := exists_opens hopen.read m
    cases hopen.opened.symm.trans hopen'.opened
    exact hm₂
  obtain ⟨err, h⟩ := complaining_faultNowhere host hmain (congrArg Report.fault hreport)
  rw [hreport] at h
  exact ⟨_, err, rfl, h⟩

/-- A main program that is of no use ends in a fault. -/
lemma runFile_of_unusable (limits : Limits) (h : host.UnusableMain raw m) :
    ∃ f m', runFile host limits raw m = .error (.fault f) m' ∧ f.kind = .brokenModule := by
  rcases h with hread | ⟨hopen, hparse⟩
  · obtain ⟨f, err, hf, h⟩ := runFile_of_refused limits m hread
    exact ⟨f, _, h, hf⟩
  · obtain ⟨f, err, hf, h⟩ := runFile_of_rejected limits hopen hparse
    exact ⟨f, _, h, hf⟩

/-- The host fails over the path or the file of a main program, or over the program that comes of it
and its traceback. -/
lemma runFile_crash_iff (hparse : ∀ text path c, host.parse text path ≠ .crash c) {c : Crash} :
    (∃ m', runFile host limits raw m = .error (.crash c) m') ↔
      host.files.Garbled raw c ∨
        ∃ text scope m₁ p, host.Opens raw m text scope m₁ ∧
          host.parse text m₁.modulePath = .program p ∧
          ∃ m', complaining host (evaluate host limits (.program p) scope) (m₁.parsing text) =
            .error (.crash c) m' := by
  have usable (h : host.UnusableMain raw m) (m' : Machine) :
      runFile host limits raw m ≠ .error (.crash c) m' := by
    obtain ⟨f, m'', hf, _⟩ := runFile_of_unusable limits h
    rw [hf]
    exact nofun
  constructor
  · rintro ⟨m', h⟩
    rcases hread : host.files.readText raw with c' | refusal | text
    · rw [runFile_eq] at h
      unfold complaining at h
      rw [mainProgram_eq, hread] at h
      cases h
      exact .inl (FileTree.readText_eq_error_iff.mp hread)
    · exact absurd h (usable (.refused hread) m')
    · obtain ⟨scope, m₁, hopen, _⟩ := exists_opens hread m
      cases hp : host.parse text m₁.modulePath with
      | crash c' => exact absurd hp (hparse _ _ c')
      | syntaxError message => exact absurd h (usable (.rejected hopen hp) m')
      | program p =>
        have hmain := mainProgram_of_text limits hopen.read hopen.opened
        rw [hp] at hmain
        exact .inr ⟨text, scope, m₁, p, hopen, hp, m', (complaining_congr hmain).symm.trans h⟩
  · rintro (hgarbled | ⟨text, scope, m₁, p, hopen, hp, m', h⟩)
    · refine ⟨m.starting raw, ?_⟩
      rw [runFile_eq]
      unfold complaining
      rw [mainProgram_eq, FileTree.readText_eq_error_iff.mpr hgarbled]
    · have hmain := mainProgram_of_text limits hopen.read hopen.opened
      rw [hp] at hmain
      exact ⟨m', (complaining_congr hmain).trans h⟩

end Eval

/-- **Loading trouble is a fault, but for names with a NUL character and files that are no text.**
An import of a name that has no file, and one of a file that cannot be opened or parsed, ends in a
fault that says so, and so does a main program of that sort. Over a name or a path with a NUL
character and over a file whose bytes are no text the host fails, and there is nothing else about
names and files over which it does: any other failure is one of the program that came of the file
or, for a main program, of its traceback.

What the tree of files leaves out can be trouble of other sorts: links, which may lead in a circle,
directories whose names are no text, a working directory that has been deleted. Names are of
characters here. An import of a text with a lone surrogate does not get as far as the loader, since
the text cannot be encoded; a host that has the code points U+DC80 to U+DCFF stand for bytes that
are no text would answer for these that there is no such module. -/
theorem Host.loading_trouble_is_fault_unless_garbled (host : Host)
    (hparse : ∀ text path c, host.parse text path ≠ .crash c) :
    (∀ (parts : Evaluator) (name : String) (m : Machine),
      (Path.hasNul name = false →
        host.files.isFile (Path.reach host.files.cwd (Path.sourceName name)) = false →
        ∃ f, Evaluator.load host parts name m = .error (.fault f) m ∧ f.kind = .moduleNotFound) ∧
      (∀ path, host.find m.world.cache name = .file path → host.Unusable path →
        ∃ f m', Evaluator.load host parts name m = .error (.fault f) m' ∧
          f.kind = .brokenModule) ∧
      ∀ c, (∃ m', Evaluator.load host parts name m = .error (.crash c) m') ↔
        host.Stumbles m.world.cache name c ∨
          ∃ path p, host.find m.world.cache name = .file path ∧ (host.read path).2 = .ok p ∧
            ∃ m', parts.runModule path p (m.reading host path) = .error (.crash c) m') ∧
    ∀ (limits : Limits) (raw : String) (m : Machine),
      (host.UnusableMain raw m → ∃ f m', Eval.runFile host limits raw m = .error (.fault f) m' ∧
        f.kind = .brokenModule) ∧
      ∀ c, (∃ m', Eval.runFile host limits raw m = .error (.crash c) m') ↔
        host.files.Garbled raw c ∨
          ∃ text scope m₁ p, host.Opens raw m text scope m₁ ∧
            host.parse text m₁.modulePath = .program p ∧
            ∃ m', Eval.complaining host (Eval.evaluate host limits (.program p) scope)
              (m₁.parsing text) = .error (.crash c) m' := by
  refine ⟨fun parts name m => ⟨fun hnul hfile => ?_, fun path hfind h => ?_, fun c => ?_⟩,
    fun limits raw m => ⟨fun h => ?_, fun c => ?_⟩⟩
  · exact ⟨_, Evaluator.load_of_missing hnul hfile, rfl⟩
  · exact Evaluator.load_of_unusable hfind h
  · exact Evaluator.load_crash_iff hparse
  · exact Eval.runFile_of_unusable limits h
  · exact Eval.runFile_crash_iff hparse

/-- The host where `a.wei` holds a byte that no text has, and no text is a program. -/
private def garbledHost : Host :=
  ⟨(FileTree.empty ⟨["W"]⟩).write "a.wei" (.file ⟨#[0xff]⟩), fun _ _ => .syntaxError "",
    Text.line?⟩

/-- The first session has opened a module. -/
private def garbledStart : Engine :=
  ((Engine.initial.newSession false .standard none).turn 0 (Eval.openModule garbledHost "")).2

/-- An import of `b`, which has no file, and a main program that is a directory. -/
theorem Host.missing_file_and_directory_are_faults :
    (∀ text path c, garbledHost.parse text path ≠ .crash c) ∧
    (∃ f, Evaluator.load garbledHost .exhausted "b" (garbledStart.machine 0) =
      .error (.fault f) (garbledStart.machine 0) ∧ f.kind = .moduleNotFound) ∧
    ∃ f m', Eval.runFile garbledHost .standard "/W" (garbledStart.machine 0) =
      .error (.fault f) m' ∧ f.kind = .brokenModule := by
  have hparse : ∀ text path c, garbledHost.parse text path ≠ .crash c := nofun
  have hdirectory : garbledHost.files.readText "/W" = .ok (.error .isDirectory) := by
    rfl
  obtain ⟨himport, hmain⟩ := Host.loading_trouble_is_fault_unless_garbled garbledHost hparse
  exact ⟨hparse, (himport _ "b" _).1 (by decide) (by decide +kernel),
    (hmain _ "/W" _).1 (.refused hdirectory)⟩

/-- The exit in which a turn ends is this one. -/
private lemma result_eq_of_exit {r : Except Exit Value} {e : Exit}
    (h : (match r with | .error e' => decide (e' = e) | .ok _ => false) = true) :
    r = .error e := by
  cases r with
  | error e' => exact congrArg _ (of_decide_eq_true h)
  | ok v => cases h

/-- The byte `ff` makes the host fail, over an import of the file and over the file as a main
program. Neither ends in a fault. -/
theorem Host.garbled_file_fails :
    (garbledStart.turn 0 (Eval.evaluate garbledHost .standard (.expr (.load (.literal (.str "a"))))
      ⟨0⟩)).1.result = .error (.crash .undecodable) ∧
    (garbledStart.turn 0 (Eval.runFile garbledHost .standard "a.wei")).1.result =
      .error (.crash .undecodable) := by
  constructor <;> exact result_eq_of_exit (by decide +kernel)

end Wei
