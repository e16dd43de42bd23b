import Wei.Proofs.Loading
import Wei.Proofs.Looks
import Wei.Proofs.Report

/-!
Tracebacks quote files as they were when they were first looked at. All sessions of a process share
the memory of source files, so what is quoted depends on the looks that all tracebacks before had
to take, and changes of a file that is remembered do not show.

The history of a process is told in looks, without its memory. The main statement says that every
traceback is the one that this history calls for, and that it quotes the files as they are if those
that are remembered have not changed.
-/

namespace Wei

/-! ### Evaluation looks at no source -/

/-- The memory of source files is left as it is, whatever the outcome is. -/
abbrev Eval.KeepsSources {α : Type} (x : Eval α) : Prop :=
  x.Within fun m m' => m'.sources = m.sources

namespace Eval.KeepsSources

variable {α : Type} {x : Eval α}

instance : Std.Refl fun m m' : Machine => m'.sources = m.sources := ⟨fun _ => rfl⟩

instance : IsTrans Machine fun m m' => m'.sources = m.sources := ⟨fun _ _ _ h h' => h'.trans h⟩

lemma own (hx : x.Own) : x.KeepsSources := by
  intro m
  cases hx with
  | @onStore _ y _ => rw [after_onStore]
  | builtin b args => rw [after_onWorld]
  | askStore y => rw [after_askStore]
  | atLine line =>
    show (if line = 0 then m else { m with stack := m.stack.setLine line }).sources = m.sources
    split <;> rfl
  | _ => rfl

lemma loading (hx : x.Loading) : x.KeepsSources := by
  intro m
  cases hx <;> rfl

lemma withFrame (hx : x.KeepsSources) (path function : String) :
    (Eval.withFrame path function x).KeepsSources := by
  intro m
  rw [after_withFrame]
  exact hx { m with stack := m.stack.push path function }

lemma withModule (hx : x.KeepsSources) (r : Ref .module) :
    (Eval.withModule r x).KeepsSources := by
  intro m
  rw [after_withModule]
  exact hx { m with module := some r }

lemma recording (hx : x.KeepsSources) : (Eval.recording x).KeepsSources := by
  intro m
  obtain ⟨report, h⟩ := after_recording x m
  rw [h]
  exact hx m

lemma outsideLoops (hx : x.KeepsSources) : (Eval.outsideLoops x).KeepsSources := by
  intro m
  obtain ⟨report, h⟩ := after_outsideLoops x m
  rw [h]
  exact hx m

lemma takingReturn {x : Eval Value} (hx : x.KeepsSources) : (Eval.takingReturn x).KeepsSources :=
  fun m => (after_takingReturn x m).symm ▸ hx m

lemma loopRound (hx : x.KeepsSources) : (Eval.loopRound x).KeepsSources :=
  fun m => (after_loopRound x m).symm ▸ hx m

lemma boundingDepth (hx : x.KeepsSources) : (Eval.boundingDepth x).KeepsSources :=
  fun m => (after_boundingDepth x m).symm ▸ hx m

lemma atBottom (hx : x.KeepsSources) : (Eval.atBottom x).KeepsSources := by
  intro m
  rw [after_atBottom]
  split
  · exact hx.withFrame m.modulePath "<module>" m
  · exact hx m

end Eval.KeepsSources

/-- Keeping the memory of source files as a congruence. It looks at one of two evaluations only. -/
def Congruence.keepingSources : Congruence where
  Rel _ _ x _ := x.KeepsSources
  own := .own
  loading := .loading
  exit {_ _ e} _ := .throw e
  bind := .bind
  widen := id
  loosen := id
  recording := .recording
  withFrame path function hx := hx.withFrame path function
  withModule r hx := hx.withModule r
  takingReturn := .takingReturn
  outsideLoops := .outsideLoops
  loopRound := .loopRound

namespace Eval

/-- Whatever the host has evaluated, no source file is looked at. -/
lemma evaluate_keepsSources (host : Host) (limits : Limits) (n : Node) (scope : Ref .scope) :
    (evaluate host limits n scope).KeepsSources := by
  have hn : (node _ scope n).KeepsSources :=
    (Congruence.keepingSources.relates_ofDepth host limits.rounds limits.depth).node scope n
  have hreset : resetReport.KeepsSources := fun _ => rfl
  exact hreset.bind fun _ => hn.outsideLoops.takingReturn.boundingDepth.recording.atBottom

lemma openModule_keepsSources (host : Host) (raw : String) :
    (openModule host raw).KeepsSources := by
  intro m
  rcases openModule_cases host raw m with ⟨_, h⟩ | ⟨r, m₁, h, hm₁⟩
  · rw [EStateM.after_of_error h]
  · rw [EStateM.after_of_ok h]
    rcases hm₁ with rfl | rfl | ⟨path, _, rfl⟩ <;> rfl

lemma mainProgram_keepsSources (host : Host) (limits : Limits) (raw : String) :
    (mainProgram host limits raw).KeepsSources := by
  have horCrash {α : Type} (x : Except Crash α) : (orCrash x).KeepsSources :=
    fun m => by rw [after_orCrash]
  refine .bind (horCrash _) fun read => ?_
  cases read with
  | error refusal => exact fun _ => rfl
  | ok text =>
    refine .bind (openModule_keepsSources host raw) fun scope => .bind .get fun m => ?_
    refine .bind (fun _ => rfl) fun parsed => ?_
    cases parsed with
    | crash c => exact .throw _
    | syntaxError message => exact fun _ => rfl
    | program p => exact evaluate_keepsSources host limits (.program p) scope

end Eval

/-! ### Tracebacks -/

/-- The text of a traceback. -/
def Fault.traceback (fault : Fault) (lines : List String) : String :=
  "\n".intercalate (["Traceback (most recent call last):"] ++ lines ++ [fault.render])

/-- **The traceback that earlier looks call for**, and the looks that there are then. -/
def Look.Tells (reader : LineReader) (files : FileTree) (past : List Look) (fault : Fault)
    (frames : List Frame)    (looks : List Look) (told : Except Crash String) : Prop :=
  ∃ lines, Shows reader files past frames looks lines ∧ told = lines.map fault.traceback

/-- What is written to the console of a traceback. -/
def Look.written : Except Crash String → String
  | .ok text => text ++ "\n"
  | .error _ => ""

/-- The exit of a main program that has been complained about. -/
def Look.complained (fault : Fault) : Except Crash String → Exit
  | .ok _ => .fault fault
  | .error c => .crash c

namespace Eval

variable {m : Machine} {past : List Look} {fault : Fault}

/-- A traceback is the one that the looks call for. -/
lemma trace_of_recalls (host : Host) (hm : m.sources.Recalls past)
    (hfault : m.report.fault = some fault) :
    ∃ looks told sources, Look.Tells host.reader host.files past fault m.report.frames looks told ∧
      SourceMemory.Recalls sources looks ∧
      trace host m = Except.within { m with sources := sources } (told.mapError Exit.crash) := by
  obtain ⟨looks, lines, sources, hshows, hsources, hlines⟩ :=
    SourceM.frameLines_of_recalls hm host.reader host.files m.report.frames
  refine ⟨looks, _, sources, ⟨lines, hshows, rfl⟩, hsources, ?_⟩
  have htext : SourceM.traceback host.reader host.files m.report m.sources =
      Except.within sources (lines.map fault.traceback) := by
    unfold SourceM.traceback
    rw [hfault]
    cases lines with
    | ok lines => exact EStateM.bind_of_ok hlines
    | error c => exact EStateM.bind_of_error hlines
  show onSources (SourceM.traceback host.reader host.files m.report) m = _
  unfold onSources
  rw [htext]
  cases lines <;> rfl

lemma complain_of_recalls (host : Host) (hm : m.sources.Recalls past)
    (hfault : m.report.fault = some fault) :
    ∃ looks told sources, Look.Tells host.reader host.files past fault m.report.frames looks told ∧
      SourceMemory.Recalls sources looks ∧
      complain host m = Except.within
        { m with sources := sources, err := m.err ++ Look.written told }
        ((told.mapError Exit.crash).map fun _ => ()) := by
  obtain ⟨looks, told, sources, htells, hsources, htrace⟩ := trace_of_recalls host hm hfault
  refine ⟨looks, told, sources, htells, hsources, ?_⟩
  have hok : m.report.ok = false := by
    unfold Report.ok
    rw [hfault]
    rfl
  refine (EStateM.bind_of_ok (show (get : Eval Machine) m = .ok m m from rfl)).trans ?_
  rw [hok, if_neg Bool.false_ne_true]
  cases told with
  | ok text =>
    refine (EStateM.bind_of_ok htrace).trans ?_
    rw [Look.written, ← String.append_assoc]
    rfl
  | error c =>
    refine (EStateM.bind_of_error htrace).trans ?_
    rw [Look.written, String.append_empty]
    rfl

/-- A main program that fails is complained about by the traceback that the looks call for. -/
lemma runFile_of_recalls (host : Host) {limits : Limits} {raw : String} {m₁ : Machine}
    (hm : m.sources.Recalls past)
    (hrun : mainProgram host limits raw (m.starting raw) = .error (.fault fault) m₁) :
    ∃ looks told sources, Look.Tells host.reader host.files past fault m₁.report.frames looks told ∧
      SourceMemory.Recalls sources looks ∧
      runFile host limits raw m = .error (Look.complained fault told)
        { m₁ with sources := sources, err := m₁.err ++ Look.written told } := by
  have hfault : m₁.report.fault = some fault := by
    have hagrees := Report.Agrees.mainProgram host limits raw (m := m.starting raw) rfl
    rw [hrun] at hagrees
    exact hagrees
  have hm₁ : m₁.sources.Recalls past := by
    have hkeeps := mainProgram_keepsSources host limits raw (m.starting raw)
    rw [EStateM.after_of_error hrun] at hkeeps
    exact hkeeps.symm ▸ hm
  obtain ⟨looks, told, sources, htells, hsources, hcomplain⟩ :=
    complain_of_recalls host hm₁ hfault
  refine ⟨looks, told, sources, htells, hsources, ?_⟩
  rw [runFile_eq]
  unfold complaining
  rw [hrun]
  dsimp only
  rw [hcomplain]
  cases told <;> rfl

end Eval

/-! ### Processes -/

/-- A process: sessions in one engine, the files that there are, and how their lines are found. -/
structure Process where
  files : FileTree
  reader : LineReader
  engine : Engine

namespace Process

/-- What sessions get from the process. -/
def host (p : Process) (parse : String → String → Parsed) : Host := ⟨p.files, parse, p.reader⟩

/-- The report of a session. -/
def report (p : Process) (i : Nat) : Report := (p.engine.sessions.get i).report

/-- A session takes a turn. -/
def turn {α : Type} (p : Process) (i : Nat) (x : Eval α) : Process :=
  { p with engine := (p.engine.turn i x).2 }

/-- What becomes of the main program that a session is to run. -/
def mainProgram (p : Process) (i : Nat) (parse : String → String → Parsed) (limits : Limits)
    (raw : String) : EStateM.Result Exit Machine Value :=
  Eval.mainProgram (p.host parse) limits raw ((p.engine.machine i).starting raw)

end Process

/-- What a traceback of the report is about, if there is something. -/
def Report.topic (r : Report) : Option (Fault × List Frame) := r.fault.map (·, r.frames)

/-- What a main program is complained about for, if it failed. -/
def Process.complaint : EStateM.Result Exit Machine Value → Option (Fault × List Frame)
  | .error (.fault fault) m => some (fault, m.report.frames)
  | _ => none

/-- The looks that there are when a traceback, if there is something for it, has been told. -/
inductive Look.Taken (reader : LineReader) (files : FileTree) (past : List Look) :
    Option (Fault × List Frame) → List Look → Prop
  | quiet : Taken reader files past none past
  | told {fault : Fault} {frames : List Frame} {looks : List Look} {told : Except Crash String} :
    Tells reader files past fault frames looks told →
      Taken reader files past (some (fault, frames)) looks

/-- **Whatever happens in a process, and the looks that were taken.** Files come and go and are
changed, sessions are made, open modules and evaluate. Looks are taken for tracebacks only: if one
is asked for, and if a main program fails. -/
inductive Process.History : Process → List Look → Prop
  | start (files : FileTree) (reader : LineReader) : History ⟨files, reader, .initial⟩ []
  | change {p : Process} {past : List Look} (files : FileTree) :
    History p past → History { p with files := files } past
  | newSession {p : Process} {past : List Look} (verbose : Bool) (limits : Limits)
      (cache : Option Nat) : History p past →
    History { p with engine := p.engine.newSession verbose limits cache } past
  | openModule {p : Process} {past : List Look} (i : Nat) (parse : String → String → Parsed)
      (raw : String) : History p past →
    History (p.turn i (Eval.openModule (p.host parse) raw)) past
  | evaluate {p : Process} {past : List Look} (i : Nat) (parse : String → String → Parsed)
      (limits : Limits) (n : Node) (scope : Ref .scope) : History p past →
    History (p.turn i (Eval.evaluate (p.host parse) limits n scope)) past
  | trace {p : Process} {past looks : List Look} (i : Nat) (parse : String → String → Parsed) :
    History p past → Look.Taken p.reader p.files past (p.report i).topic looks →
    History (p.turn i (Eval.trace (p.host parse))) looks
  | complain {p : Process} {past looks : List Look} (i : Nat) (parse : String → String → Parsed) :
    History p past → Look.Taken p.reader p.files past (p.report i).topic looks →
    History (p.turn i (Eval.complain (p.host parse))) looks
  | runFile {p : Process} {past looks : List Look} (i : Nat) (parse : String → String → Parsed)
      (limits : Limits) (raw : String) : History p past →
    Look.Taken p.reader p.files past (complaint (p.mainProgram i parse limits raw)) looks →
    History (p.turn i (Eval.runFile (p.host parse) limits raw)) looks

lemma Look.Tells.unique {reader : LineReader} {files : FileTree} {past looks looks' : List Look}
    {fault : Fault} {frames : List Frame} {told told' : Except Crash String}
    (h : Tells reader files past fault frames looks told)
    (h' : Tells reader files past fault frames looks' told') : looks = looks' ∧ told = told' := by
  obtain ⟨lines, hshows, rfl⟩ := h
  obtain ⟨lines', hshows', rfl⟩ := h'
  obtain ⟨rfl, rfl⟩ := hshows.unique hshows'
  exact ⟨rfl, rfl⟩

/-- A memory that is left as it is, or that recalls what a traceback calls for, recalls the looks
that were taken. -/
lemma Look.Taken.recalls {reader : LineReader} {files : FileTree} {past looks : List Look}
    {topic : Option (Fault × List Frame)} {mem mem' : SourceMemory}
    (h : Taken reader files past topic looks) (hmem : mem.Recalls past)
    (hquiet : topic = none → mem' = mem)
    (htold : ∀ fault frames, topic = some (fault, frames) →
      ∃ looks told, Tells reader files past fault frames looks told ∧ mem'.Recalls looks) :
    mem'.Recalls looks := by
  cases h with
  | quiet => exact (hquiet rfl).symm ▸ hmem
  | told htells =>
    obtain ⟨looks', told', htells', hmem'⟩ := htold _ _ rfl
    obtain ⟨rfl, rfl⟩ := htells.unique htells'
    exact hmem'

lemma Report.topic_eq_some_iff {r : Report} {fault : Fault} {frames : List Frame} :
    r.topic = some (fault, frames) ↔ r.fault = some fault ∧ r.frames = frames := by
  simp [Report.topic]

namespace Eval

variable {m : Machine} {past looks : List Look}

lemma after_of_within {α : Type} {x : Eval α} {m' : Machine} {r : Except Exit α}
    (h : x m = Except.within m' r) : x.after m = m' := by
  cases r with
  | ok a => exact EStateM.after_of_ok h
  | error e => exact EStateM.after_of_error h

lemma trace_recalls (host : Host) (hm : m.sources.Recalls past)
    (h : Look.Taken host.reader host.files past m.report.topic looks) :
    ((trace host).after m).sources.Recalls looks := by
  refine h.recalls hm (fun hnone => ?_) fun fault frames hsome => ?_
  · have htrace : trace host m = .error (.crash .noFault) m := by
      show onSources (SourceM.traceback host.reader host.files m.report) m = _
      unfold onSources SourceM.traceback
      rw [Option.map_eq_none_iff.mp hnone]
      rfl
    rw [EStateM.after_of_error htrace]
  · obtain ⟨hfault, rfl⟩ := Report.topic_eq_some_iff.mp hsome
    obtain ⟨looks, told, sources, htells, hsources, htrace⟩ := trace_of_recalls host hm hfault
    rw [after_of_within htrace]
    exact ⟨looks, told, htells, hsources⟩

lemma complain_recalls (host : Host) (hm : m.sources.Recalls past)
    (h : Look.Taken host.reader host.files past m.report.topic looks) :
    ((complain host).after m).sources.Recalls looks := by
  refine h.recalls hm (fun hnone => ?_) fun fault frames hsome => ?_
  · have hcomplain : complain host m = .ok () m := by
      refine (EStateM.bind_of_ok (show (get : Eval Machine) m = .ok m m from rfl)).trans ?_
      rw [Report.ok, Option.map_eq_none_iff.mp hnone]
      rfl
    rw [EStateM.after_of_ok hcomplain]
  · obtain ⟨hfault, rfl⟩ := Report.topic_eq_some_iff.mp hsome
    obtain ⟨looks, told, sources, htells, hsources, hcomplain⟩ :=
      complain_of_recalls host hm hfault
    rw [after_of_within hcomplain]
    exact ⟨looks, told, htells, hsources⟩

lemma complaining_of_ne {α : Type} {host : Host} {x : Eval α}
    (h : ∀ fault m₁, x m ≠ .error (.fault fault) m₁) : complaining host x m = x m := by
  unfold complaining
  split
  · next fault m₁ hx => exact absurd hx (h fault m₁)
  · rfl

lemma runFile_recalls (host : Host) (limits : Limits) (raw : String) (hm : m.sources.Recalls past)
    (h : Look.Taken host.reader host.files past
      (Process.complaint (mainProgram host limits raw (m.starting raw))) looks) :
    ((runFile host limits raw).after m).sources.Recalls looks := by
  refine h.recalls hm (fun hnone => ?_) fun fault frames hsome => ?_
  · have hne (fault : Fault) (m₁ : Machine) :
        mainProgram host limits raw (m.starting raw) ≠ .error (.fault fault) m₁ := by
      intro hrun
      rw [hrun] at hnone
      cases hnone
    rw [EStateM.after, runFile_eq, complaining_of_ne hne]
    exact mainProgram_keepsSources host limits raw (m.starting raw)
  · unfold Process.complaint at hsome
    split at hsome
    · next fault m₁ hrun =>
      cases hsome
      obtain ⟨looks, told, sources, htells, hsources, hrunFile⟩ := runFile_of_recalls host hm hrun
      rw [EStateM.after_of_error hrunFile]
      exact ⟨looks, told, htells, hsources⟩
    · cases hsome

end Eval

namespace Process.History

variable {p : Process} {past : List Look}

/-- **At all times the memory is what the looks left.** -/
theorem recalls (h : p.History past) : p.engine.sources.Recalls past := by
  -- A turn that leaves the memory as it is.
  have keeps {p : Process} {past : List Look} {α : Type} {x : Eval α} (hx : x.KeepsSources)
      (ih : p.engine.sources.Recalls past) (i : Nat) :
      (p.turn i x).engine.sources.Recalls past := by
    have hsources : (p.turn i x).engine.sources = p.engine.sources := by
      unfold Process.turn
      rw [Engine.turn_snd]
      exact hx (p.engine.machine i)
    rw [hsources]
    exact ih
  induction h with
  | start files reader => exact SourceMemory.empty_recalls
  | change files _ ih => exact ih
  | newSession verbose limits cache _ ih => exact ih
  | openModule i parse raw _ ih => exact keeps (Eval.openModule_keepsSources _ raw) ih i
  | evaluate i parse limits n scope _ ih =>
    exact keeps (Eval.evaluate_keepsSources _ limits n scope) ih i
  | trace i parse _ htaken ih =>
    unfold Process.turn
    rw [Engine.turn_snd]
    exact Eval.trace_recalls _ ih htaken
  | complain i parse _ htaken ih =>
    unfold Process.turn
    rw [Engine.turn_snd]
    exact Eval.complain_recalls _ ih htaken
  | runFile i parse limits raw _ htaken ih =>
    unfold Process.turn
    rw [Engine.turn_snd]
    exact Eval.runFile_recalls _ limits raw ih htaken

end Process.History

lemma Engine.turn_of_within {p : Engine} {i : Nat} {α : Type} {x : Eval α} {m : Machine}
    {r : Except Exit α} (h : x (p.machine i) = Except.within m r) :
    (p.turn i x).1 = ⟨r, m.world.out, m.err, m.parsed⟩ := by
  unfold Engine.turn
  rw [h]
  cases r <;> rfl

/-- What session `i` is told in tracebacks, after the looks `past`. -/
structure Process.QuotesFirstLooks (p : Process) (past : List Look) (i : Nat)
    (parse : String → String → Parsed) : Prop where
  /-- Who asks for a traceback is answered the one that the looks call for. -/
  trace {fault : Fault} : (p.report i).fault = some fault → ∃ looks told,
    Look.Tells p.reader p.files past fault (p.report i).frames looks told ∧
      (p.turn i (Eval.trace (p.host parse))).History looks ∧
      (p.engine.turn i (Eval.trace (p.host parse))).1.result = told.mapError Exit.crash
  /-- So is the one that is written to the console. -/
  complain {fault : Fault} : (p.report i).fault = some fault → ∃ looks told,
    Look.Tells p.reader p.files past fault (p.report i).frames looks told ∧
      (p.turn i (Eval.complain (p.host parse))).History looks ∧
      (p.engine.turn i (Eval.complain (p.host parse))).1.err = Look.written told
  /-- So is the one in which a main program ends. -/
  runFile {limits : Limits} {raw : String} {fault : Fault} {m : Machine} :
    p.mainProgram i parse limits raw = .error (.fault fault) m → ∃ looks told,
      Look.Tells p.reader p.files past fault m.report.frames looks told ∧
        (p.turn i (Eval.runFile (p.host parse) limits raw)).History looks ∧
        (p.engine.turn i (Eval.runFile (p.host parse) limits raw)).1.err =
          m.err ++ Look.written told
  /-- The looks call for one traceback only. -/
  unique {fault : Fault} {frames : List Frame} {looks looks' : List Look}
      {told told' : Except Crash String} :
    Look.Tells p.reader p.files past fault frames looks told →
    Look.Tells p.reader p.files past fault frames looks' told' → told = told'
  /-- It quotes the files as they are, if those that are remembered have not changed. -/
  asItIs {fault : Fault} {frames : List Frame} {looks : List Look} {told : Except Crash String} :
    (∀ f ∈ frames, Look.Unchanged past p.files f.path) →
    Look.Tells p.reader p.files past fault frames looks told →
    told = (p.files.quoting p.reader frames).map fault.traceback

/-- **Tracebacks quote files as they were when they were first looked at**, in all sessions of a
process and whatever happened before. Under a frame stands its line in the text that the file had at
the look that its text goes back to: that is the present look, unless the file is one of the five
that tracebacks looked at last. Nothing stands there if the file could not be read then, or had no
such line. So the files are quoted as they are, if those that are remembered have not changed. -/
theorem Process.History.tracebacks_quote_first_looks {p : Process} {past : List Look}
    (h : p.History past) (i : Nat) (parse : String → String → Parsed) :
    p.QuotesFirstLooks past i parse where
  trace {fault} hfault := by
    have htopic := Report.topic_eq_some_iff.mpr ⟨hfault, rfl⟩
    obtain ⟨looks, told, sources, htells, _, htrace⟩ :=
      Eval.trace_of_recalls (m := p.engine.machine i) (p.host parse) h.recalls hfault
    refine ⟨looks, told, htells, .trace i parse h (htopic ▸ .told htells), ?_⟩
    rw [Engine.turn_of_within htrace]
  complain {fault} hfault := by
    have htopic := Report.topic_eq_some_iff.mpr ⟨hfault, rfl⟩
    obtain ⟨looks, told, sources, htells, _, hcomplain⟩ :=
      Eval.complain_of_recalls (m := p.engine.machine i) (p.host parse) h.recalls hfault
    refine ⟨looks, told, htells, .complain i parse h (htopic ▸ .told htells), ?_⟩
    rw [Engine.turn_of_within hcomplain]
    exact String.empty_append
  runFile {limits raw fault m} hrun := by
    obtain ⟨looks, told, sources, htells, _, hrunFile⟩ :=
      Eval.runFile_of_recalls (m := p.engine.machine i) (p.host parse) h.recalls hrun
    refine ⟨looks, told, htells, .runFile i parse limits raw h (hrun ▸ .told htells), ?_⟩
    rw [Engine.turn_of_within (r := .error _) hrunFile]
  unique htells htells' := (htells.unique htells').2
  asItIs hunchanged htells := by
    obtain ⟨lines, hshows, rfl⟩ := htells
    rw [hshows.eq_quoting hunchanged]

section Ghost

/-- A file that is a main program. -/
private def ghostFiles (text : String) : FileTree :=
  (FileTree.empty ⟨["W"]⟩).write "main.wei" (.file text.toUTF8)

/-- Whatever the text is, the program reads an unknown name on its first line. -/
private def ghostParse : String → String → Parsed :=
  fun _ _ => .program ⟨[.mk 1 (.eval (.name "ghost"))]⟩

/-- A session is to run the program. -/
private def ghostStart : Process :=
  ⟨ghostFiles "old", Text.line?, Engine.initial.newSession false .standard none⟩

/-- It has been run, and then its file was changed. -/
private def ghostChanged : Process :=
  { ghostStart.turn 0 (Eval.runFile (ghostStart.host ghostParse) ⟨5, 1⟩ "main.wei") with
    files := ghostFiles "new" }

/-- The look that was taken when the program failed. -/
private def ghostLook : Look := ⟨ghostFiles "old", "/W/main.wei"⟩

/-- A traceback that quotes a line of the file. -/
private def ghostTraceback (line : String) : String :=
  "Traceback (most recent call last):\n  File \"/W/main.wei\", line 1, in <module>\n    " ++ line ++
    "\nNameError: undefined: 'ghost'"

private lemma ghost_tells : Look.Tells Text.line? ghostStart.files [] (.undefinedName "ghost")
    [⟨"/W/main.wei", "<module>", 1⟩] [ghostLook] (.ok (ghostTraceback "old")) := by
  have hsource : ghostLook.files.source ghostLook.path = .ok (some "old") := by decide +kernel
  have hfinds : Look.Finds [] ghostLook (.ok (some "old")) :=
    ⟨ghostLook, Look.origin_of_not_recent List.not_mem_nil, hsource⟩
  exact ⟨_, .quoted (by decide) hfinds (.done _), by decide +kernel⟩

private lemma ghost_history : ghostStart.History [] ∧ ghostChanged.History [ghostLook] := by
  have hstart : ghostStart.History [] :=
    .newSession false .standard none (.start (ghostFiles "old") Text.line?)
  have hcomplaint : Process.complaint (ghostStart.mainProgram 0 ghostParse ⟨5, 1⟩ "main.wei") =
      some (.undefinedName "ghost", [⟨"/W/main.wei", "<module>", 1⟩]) := by decide +kernel
  exact ⟨hstart, .change (ghostFiles "new")
    (.runFile 0 ghostParse ⟨5, 1⟩ "main.wei" hstart (hcomplaint ▸ .told ghost_tells))⟩

/-- When the program fails, its file is quoted as it is. When the file has been changed after that,
the look at that time calls for the same traceback again. -/
theorem Process.History.traceback_of_changed_file :
    ghostStart.History [] ∧
      (ghostStart.files.quoting ghostStart.reader [⟨"/W/main.wei", "<module>", 1⟩]).map
        (Fault.undefinedName "ghost").traceback = .ok (ghostTraceback "old") ∧
      ghostChanged.History [ghostLook] ∧
      (ghostChanged.report 0).fault = some (.undefinedName "ghost") ∧
      ∃ looks, Look.Tells ghostChanged.reader ghostChanged.files [ghostLook]
        (.undefinedName "ghost") (ghostChanged.report 0).frames looks
        (.ok (ghostTraceback "old")) := by
  obtain ⟨hstart, hchanged⟩ := ghost_history
  have hfirst := (hstart.tracebacks_quote_first_looks 0 ghostParse).asItIs
    (fun f _ => Look.unchanged_nil _ f.path) ghost_tells
  have hfault : (ghostChanged.report 0).fault = some (.undefinedName "ghost") := by decide +kernel
  have hresult : (ghostChanged.engine.turn 0 (Eval.trace (ghostChanged.host ghostParse))).1.result =
      .ok (ghostTraceback "old") := by decide +kernel
  obtain ⟨looks, told, htells, _, htold⟩ :=
    (hchanged.tracebacks_quote_first_looks 0 ghostParse).trace hfault
  have hold : told = .ok (ghostTraceback "old") := by
    cases told with
    | ok text => exact congrArg _ (Except.ok.inj (htold.symm.trans hresult))
    | error c => cases htold.symm.trans hresult
  exact ⟨hstart, hfirst.symm, hchanged, hfault, looks, hold ▸ htells⟩

/-- **A traceback may quote a text that is no more.** The file of the frame has changed since the
program was run, and the line that stood there before is shown. -/
theorem Process.traceback_quotes_old_text :
    ghostChanged.History [ghostLook] ∧
      ghostChanged.files.source "/W/main.wei" = .ok (some "new") ∧
      (ghostChanged.report 0).frames = [⟨"/W/main.wei", "<module>", 1⟩] ∧
      (ghostChanged.engine.turn 0 (Eval.trace (ghostChanged.host ghostParse))).1.result =
        .ok (ghostTraceback "old") ∧
      (ghostChanged.files.quoting ghostChanged.reader (ghostChanged.report 0).frames).map
        (Fault.undefinedName "ghost").traceback = .ok (ghostTraceback "new") :=
  ⟨ghost_history.2, by decide +kernel⟩

end Ghost

end Wei
