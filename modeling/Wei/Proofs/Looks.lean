import Wei.Proofs.After
import Wei.Proofs.Mirror

/-!
Looks at source files. The text of a file is read when a traceback has to show a line of it, and it
is remembered for as long as the file is one of the five that were looked at last. So the text that
is shown goes back to an earlier look: to the first since the file was forgotten, or ever. That is
said of the looks in the order in which they were taken, without the memory, and the memory is shown
to keep to it.
-/

namespace Wei

/-! ### Looks -/

/-- A look at the source of a file: the files that there were then, and the path. -/
structure Look where
  files : FileTree
  path : String

namespace Look

/-- The paths that were looked at, each once, the latest first. The looks stand in this order
too. -/
def paths : List Look → List String
  | [] => []
  | now :: past => now.path :: (paths past).filter (· ≠ now.path)

/-- The file is one of those that were looked at last, as many as are remembered. -/
def Recent (looks : List Look) (path : String) : Prop :=
  path ∈ (paths looks).take SourceMemory.capacity

/-- **The look that a text goes back to**: the file was not one of those looked at last before this
look, and it has been one of them ever since. -/
def Origin (looks : List Look) (path : String) (first : Look) : Prop :=
  first.path = path ∧ ∃ since before, looks = since ++ first :: before ∧ ¬ Recent before path ∧
    ∀ later, later <:+ since → Recent (later ++ first :: before) path

/-- What is to be shown of a file when it is looked at after the looks `past`. -/
def Finds (past : List Look) (now : Look) (text : Except Crash (Option String)) : Prop :=
  ∃ first, Origin (now :: past) now.path first ∧ first.files.source now.path = text

variable {past looks : List Look} {now first first' : Look} {path : String}

lemma nodup_paths (looks : List Look) : (paths looks).Nodup := by
  induction looks with
  | nil => exact List.nodup_nil
  | cons now past ih =>
    refine List.nodup_cons.mpr ⟨fun h => ?_, ih.filter _⟩
    simpa using (List.mem_filter.mp h).2

lemma recent_cons (now : Look) (past : List Look) : Recent (now :: past) now.path :=
  List.mem_cons_self

/-- The text of a file that is looked at for the first time is that of this look. -/
lemma origin_of_not_recent (h : ¬ Recent past now.path) : Origin (now :: past) now.path now := by
  refine ⟨rfl, [], past, rfl, h, fun later hlater => ?_⟩
  rw [List.suffix_nil.mp hlater]
  exact recent_cons now past

/-- As long as a file is remembered, its text stays the same. -/
lemma Origin.cons (h : Origin past path first) (hrecent : Recent (now :: past) path) :
    Origin (now :: past) path first := by
  obtain ⟨hpath, since, before, rfl, hnot, hall⟩ := h
  refine ⟨hpath, now :: since, before, rfl, hnot, fun later hlater => ?_⟩
  rcases List.suffix_cons_iff.mp hlater with rfl | hlater
  · exact hrecent
  · exact hall later hlater

lemma Origin.of_cons (h : Origin (now :: past) path first) :
    first = now ∨ Origin past path first := by
  obtain ⟨hpath, since, before, heq, hnot, hall⟩ := h
  rcases List.cons_eq_append_iff.mp heq with ⟨rfl, heq⟩ | ⟨since, rfl, rfl⟩
  · exact .inl (List.cons.inj heq).1.symm
  · exact .inr ⟨hpath, since, before, rfl, hnot, fun later hlater =>
      hall later (hlater.trans (List.suffix_cons now since))⟩

/-- A text goes back to one look only. -/
lemma Origin.unique (h : Origin looks path first) (h' : Origin looks path first') :
    first = first' := by
  -- Of two origins the later one would be a look at a file that is remembered.
  have later {s s' b b' t : List Look} {o o' : Look} (hb : ¬ Recent b path)
      (hs : ∀ l, l <:+ s' → Recent (l ++ o' :: b') path) (heq : s' = s ++ t)
      (hrest : o :: b = t ++ o' :: b') : o = o' := by
    cases t with
    | nil => exact (List.cons.inj hrest).1
    | cons x t =>
      obtain ⟨-, rfl⟩ := List.cons.inj hrest
      exact absurd (hs t ⟨s ++ [x], by simp [heq]⟩) hb
  obtain ⟨_, since, before, rfl, hnot, hall⟩ := h
  obtain ⟨_, since', before', heq, hnot', hall'⟩ := h'
  rcases List.append_eq_append_iff.mp heq with ⟨t, ht, hrest⟩ | ⟨t, ht, hrest⟩
  · exact later hnot hall' ht hrest
  · exact (later hnot' hall ht hrest).symm

lemma Finds.unique {text text' : Except Crash (Option String)} (h : Finds past now text)
    (h' : Finds past now text') : text = text' := by
  obtain ⟨first, horigin, rfl⟩ := h
  obtain ⟨first', horigin', rfl⟩ := h'
  rw [horigin.unique horigin']

/-- The file reads in `files` as it did when it was looked at, if it is remembered. -/
def Unchanged (past : List Look) (files : FileTree) (path : String) : Prop :=
  ∀ first, Origin past path first → first.files.source path = files.source path

lemma unchanged_nil (files : FileTree) (path : String) : Unchanged [] files path := by
  rintro first ⟨_, since, before, heq, _⟩
  cases since <;> cases heq

lemma Unchanged.cons {files : FileTree} (h : Unchanged past files path) (path' : String) :
    Unchanged (⟨files, path'⟩ :: past) files path := by
  intro first horigin
  rcases horigin.of_cons with rfl | horigin
  · rfl
  · exact h first horigin

/-- What is found of an unchanged file is what there is now. -/
lemma Finds.eq_source {text : Except Crash (Option String)} (h : Finds past now text)
    (hpast : Unchanged past now.files now.path) : text = now.files.source now.path := by
  obtain ⟨first, horigin, rfl⟩ := h
  exact hpast.cons now.path first horigin

end Look

/-! ### What is remembered -/

/-- At most one of different entries is taken away, so one more than are wanted is enough. -/
lemma take_filter_ne {path : String} (n : Nat) {l : List String} (h : l.Nodup) :
    ((l.take (n + 1)).filter (· ≠ path)).take n = (l.filter (· ≠ path)).take n := by
  induction l generalizing n with
  | nil => rfl
  | cons x l ih =>
    obtain ⟨hx, hl⟩ := List.nodup_cons.mp h
    rw [List.take_succ_cons]
    by_cases hne : x = path
    · subst hne
      have hall : ∀ y ∈ l, decide (y ≠ x) = true := fun y hy =>
        decide_eq_true (ne_of_mem_of_not_mem hy hx)
      rw [List.filter_cons_of_neg (by simp), List.filter_cons_of_neg (by simp),
        List.filter_eq_self.mpr fun y hy => hall y (List.mem_of_mem_take hy),
        List.filter_eq_self.mpr hall, List.take_take, Nat.min_self]
    · rw [List.filter_cons_of_pos (by simpa using hne),
        List.filter_cons_of_pos (by simpa using hne)]
      cases n with
      | zero => rfl
      | succ n => rw [List.take_succ_cons, List.take_succ_cons, ih n hl]

/-- The memory is what the looks left: it has the files that were looked at last, each with the text
of the look that this goes back to. -/
structure SourceMemory.Recalls (mem : SourceMemory) (looks : List Look) : Prop where
  paths : mem.recent.map Prod.fst = (Look.paths looks).take capacity
  texts : ∀ e ∈ mem.recent, ∃ first, Look.Origin looks e.1 first ∧
    first.files.source e.1 = .ok e.2

namespace SourceMemory

variable {mem : SourceMemory} {looks : List Look}

lemma empty_recalls : empty.Recalls [] := ⟨rfl, fun _ h => absurd h List.not_mem_nil⟩

lemma map_recent_remember (h : mem.Recalls looks) (now : Look) (text : Option String) :
    (mem.remember now.path text).recent.map Prod.fst =
      (Look.paths (now :: looks)).take capacity := by
  have hfilter : (mem.recent.filter (·.1 ≠ now.path)).map Prod.fst =
      ((Look.paths looks).take capacity).filter (· ≠ now.path) := by
    rw [← h.paths, List.filter_map]
    rfl
  show (List.take 5 _).map Prod.fst = (now.path :: (Look.paths looks).filter _).take 5
  rw [List.map_take, List.map_cons, hfilter, List.take_succ_cons, List.take_succ_cons]
  exact congrArg _ (take_filter_ne 4 (Look.nodup_paths looks))

/-- **One look** leaves a memory of one look more. -/
lemma Recalls.remember (h : mem.Recalls looks) {now : Look} {text : Option String}
    (hnow : Look.Finds looks now (.ok text)) :
    (mem.remember now.path text).Recalls (now :: looks) := by
  have hpaths := map_recent_remember h now text
  refine ⟨hpaths, fun e he => ?_⟩
  have hrecent : Look.Recent (now :: looks) e.1 := by
    unfold Look.Recent
    rw [← hpaths]
    exact List.mem_map_of_mem he
  rcases List.mem_cons.mp (List.mem_of_mem_take he) with rfl | he
  · exact hnow
  · obtain ⟨first, horigin, hsource⟩ := h.texts e (List.mem_filter.mp he).1
    exact ⟨first, horigin.cons hrecent, hsource⟩

end SourceMemory

/-- A look answers what there is to be found. If that is no text, the look is not remembered. -/
lemma SourceM.fetch_of_recalls {mem : SourceMemory} {looks : List Look} (h : mem.Recalls looks)
    (now : Look) :
    (∃ text, Look.Finds looks now (.ok text) ∧
      fetch now.files now.path mem = .ok text (mem.remember now.path text)) ∨
    ∃ c, Look.Finds looks now (.error c) ∧ fetch now.files now.path mem = .error c mem := by
  unfold fetch
  cases hl : OrderedMap.lookup now.path mem.recent with
  | some text =>
    have hmem := OrderedMap.mem_entries_of_lookup hl
    obtain ⟨first, horigin, hsource⟩ := h.texts _ hmem
    exact .inl ⟨text, ⟨first, horigin.cons (Look.recent_cons now looks), hsource⟩, rfl⟩
  | none =>
    have hnot : ¬ Look.Recent looks now.path := by
      unfold Look.Recent
      rw [← h.paths, ← OrderedMap.lookup_isSome_iff, hl]
      exact Bool.false_ne_true
    have hfinds : Look.Finds looks now (now.files.source now.path) :=
      ⟨now, Look.origin_of_not_recent hnot, rfl⟩
    unfold FileTree.source at hfinds
    dsimp only
    rcases hread : now.files.readText now.path with c | refusal | text
    · rw [hread] at hfinds
      exact .inr ⟨c, hfinds, rfl⟩
    · rw [hread] at hfinds
      exact .inl ⟨none, hfinds, rfl⟩
    · rw [hread] at hfinds
      exact .inl ⟨some text, hfinds, rfl⟩

/-! ### Frames and their lines -/

namespace Frame

/-- Where the frame is. -/
def place (f : Frame) : String :=
  "  File \"" ++ f.path ++ "\", line " ++ Numeral.decimal f.line ++ ", in " ++ f.function

/-- The line of the source on which the frame is, without the white space around it. There is none
if the source cannot be read, has no such line, or has nothing on it. -/
def quote (reader : LineReader) (f : Frame) (source : Option String) : List String :=
  match source.bind fun text => reader text f.line.toNat with
  | none => []
  | some line =>
    if (Text.stripped line).isEmpty then [] else ["    " ++ Text.stripped line]

/-- The lines of a traceback that show the frame. -/
def shown (reader : LineReader) (f : Frame) (source : Option String) : List String :=
  f.place :: f.quote reader source

end Frame

/-- The lines of a traceback that quotes the files as they are. -/
def FileTree.quoting (reader : LineReader) (files : FileTree) :
    List Frame → Except Crash (List String)
  | [] => .ok []
  | f :: rest => (if f.line < 1 then .ok none else files.source f.path).bind fun source =>
    (files.quoting reader rest).map (f.shown reader source ++ ·)

/-- **The lines that a traceback shows of frames**, after the looks `past`, and the looks that there
are then. A frame without a line needs no look. Where no text is to be found, the traceback
fails. -/
inductive Look.Shows (reader : LineReader) (files : FileTree) :
    List Look → List Frame → List Look → Except Crash (List String) → Prop
  | done (past : List Look) : Shows reader files past [] past (.ok [])
  | unlined {f : Frame} {frames : List Frame} {past looks : List Look}
      {lines : Except Crash (List String)} : f.line < 1 →
    Shows reader files past frames looks lines →
    Shows reader files past (f :: frames) looks (lines.map (f.shown reader none ++ ·))
  | quoted {f : Frame} {frames : List Frame} {past looks : List Look} {text : Option String}
      {lines : Except Crash (List String)} : ¬ f.line < 1 → Finds past ⟨files, f.path⟩ (.ok text) →
    Shows reader files (⟨files, f.path⟩ :: past) frames looks lines →
    Shows reader files past (f :: frames) looks (lines.map (f.shown reader text ++ ·))
  | garbled {f : Frame} {frames : List Frame} {past : List Look} {c : Crash} : ¬ f.line < 1 →
    Finds past ⟨files, f.path⟩ (.error c) → Shows reader files past (f :: frames) past (.error c)

namespace Look.Shows

variable {reader : LineReader} {files : FileTree} {past looks looks' : List Look}
  {frames : List Frame} {lines lines' : Except Crash (List String)}

/-- Nothing is left open. -/
lemma unique (h : Shows reader files past frames looks lines)
    (h' : Shows reader files past frames looks' lines') :
    looks = looks' ∧ lines = lines' := by
  induction h generalizing looks' lines' with
  | done past =>
    cases h'
    exact ⟨rfl, rfl⟩
  | unlined hline _ ih =>
    cases h' with
    | unlined _ hrest =>
      obtain ⟨rfl, rfl⟩ := ih hrest
      exact ⟨rfl, rfl⟩
    | quoted hline' => exact absurd hline hline'
    | garbled hline' => exact absurd hline hline'
  | quoted hline hfinds _ ih =>
    cases h' with
    | unlined hline' => exact absurd hline' hline
    | quoted _ hfinds' hrest =>
      cases hfinds.unique hfinds'
      obtain ⟨rfl, rfl⟩ := ih hrest
      exact ⟨rfl, rfl⟩
    | garbled _ hfinds' => cases hfinds.unique hfinds'
  | garbled hline hfinds =>
    cases h' with
    | unlined hline' => exact absurd hline' hline
    | quoted _ hfinds' => cases hfinds.unique hfinds'
    | garbled _ hfinds' =>
      cases hfinds.unique hfinds'
      exact ⟨rfl, rfl⟩

/-- The files are quoted as they are if none has changed since it was looked at. -/
lemma eq_quoting (h : Shows reader files past frames looks lines)
    (hpast : ∀ f ∈ frames, Unchanged past files f.path) : lines = files.quoting reader frames := by
  induction h with
  | done past => rfl
  | unlined hline _ ih =>
    rw [ih fun f hf => hpast f (List.mem_cons_of_mem _ hf), FileTree.quoting, if_pos hline]
    rfl
  | @quoted f frames past looks text lines hline hfinds _ ih =>
    have hsource := hfinds.eq_source (hpast f List.mem_cons_self)
    have hrest : lines = files.quoting reader frames :=
      ih fun g hg => (hpast g (List.mem_cons_of_mem _ hg)).cons f.path
    rw [hrest, FileTree.quoting, if_neg hline, ← hsource]
    rfl
  | @garbled f frames past c hline hfinds =>
    have hsource := hfinds.eq_source (hpast f List.mem_cons_self)
    rw [FileTree.quoting, if_neg hline, ← hsource]
    rfl

end Look.Shows

/-- The line of the source, as it is fetched. -/
lemma Frame.quote_eq (reader : LineReader) (f : Frame) (source : Option String) :
    f.quote reader source =
      let text := source.elim "" fun text => Text.stripped ((reader text f.line.toNat).getD "")
      if text.isEmpty then [] else ["    " ++ text] := by
  cases source with
  | none => rfl
  | some text =>
    unfold quote
    rw [Option.bind_some, Option.elim_some]
    generalize reader text f.line.toNat = line?
    cases line? with
    | none => rfl
    | some line => rfl

namespace SourceM

variable {reader : LineReader} {files : FileTree} {f : Frame} {rest : List Frame}
  {mem mem₁ mem' : SourceMemory}

lemma frameLines_cons {source : Option String} {lines : Except Crash (List String)}
    (hline : sourceLine reader files f.path f.line mem =
      .ok (source.elim "" fun text => Text.stripped ((reader text f.line.toNat).getD "")) mem₁)
    (hrest : frameLines reader files rest mem₁ = Except.within mem' lines) :
    frameLines reader files (f :: rest) mem =
      Except.within mem' (lines.map (f.shown reader source ++ ·)) := by
  unfold frameLines
  rw [EStateM.bind_of_ok hline, Frame.shown, Frame.quote_eq]
  cases lines with
  | ok lines => exact EStateM.bind_of_ok hrest
  | error c => exact EStateM.bind_of_error hrest

/-- **The frames of a traceback** are shown as the looks before call for. -/
lemma frameLines_of_recalls {past : List Look} (h : mem.Recalls past) (reader : LineReader)
    (files : FileTree) (frames : List Frame) :
    ∃ looks lines mem', Look.Shows reader files past frames looks lines ∧ mem'.Recalls looks ∧
      frameLines reader files frames mem = Except.within mem' lines := by
  induction frames generalizing mem past with
  | nil => exact ⟨past, .ok [], mem, .done past, h, rfl⟩
  | cons f rest ih =>
    by_cases hline : f.line < 1
    · obtain ⟨looks, lines, mem', hshows, hmem', hrest⟩ := ih h
      refine ⟨looks, _, mem', .unlined hline hshows, hmem', frameLines_cons ?_ hrest⟩
      unfold sourceLine
      rw [if_pos hline]
      rfl
    · rcases fetch_of_recalls h ⟨files, f.path⟩ with ⟨text, hfinds, hfetch⟩ | ⟨c, hfinds, hfetch⟩
      · obtain ⟨looks, lines, mem', hshows, hmem', hrest⟩ := ih (h.remember hfinds)
        refine ⟨looks, _, mem', .quoted hline hfinds hshows, hmem', frameLines_cons ?_ hrest⟩
        unfold sourceLine
        rw [if_neg hline, EStateM.bind_of_ok hfetch]
        cases text <;> rfl
      · refine ⟨past, _, mem, .garbled hline hfinds, h, ?_⟩
        unfold frameLines sourceLine
        rw [if_neg hline]
        exact EStateM.bind_of_error (EStateM.bind_of_error hfetch)

end SourceM

end Wei
