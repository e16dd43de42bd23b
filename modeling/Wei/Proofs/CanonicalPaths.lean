import Wei.Proofs.FailedLoad
import Wei.Proofs.LoadOnce
import Wei.Proofs.Occurrence

/-!
Paths of modules are canonical. Whatever a script calls a module, the path that it comes to is
absolute, has neither empty segments nor `.` or `..`, and ends like the name of a source file; and
calling the module by this path comes to the same path again.

A host opens the module of a file under the path to which the file itself leads. If that ends like
the name of a source file, it is the path to which imports of the file come. So an import of the
main file finds the module that is running, however the file is called.
-/

namespace Wei

/-! ### Text in fields -/

namespace Text

variable {mark : Char} {cs ending : List Char}

lemma fields_eq_splitOn (mark : Char) (cs : List Char) : fields mark cs = cs.splitOn mark := by
  induction cs with
  | nil => rfl
  | cons c rest ih =>
    rw [List.splitOn_cons_eq_if_modifyHead, ← ih, fields]
    by_cases hc : c = mark
    · rw [if_pos hc, if_pos (beq_iff_eq.mpr hc)]
    · rw [if_neg hc, if_neg (mt beq_iff_eq.mp hc)]
      cases h : fields mark rest with
      | nil => exact absurd (ih.symm.trans h) (List.splitOn_ne_nil mark rest)
      | cons field more => rfl

/-- A field is a piece of the text without marks. -/
lemma mem_of_mem_fields {field : List Char} (h : field ∈ fields mark cs) :
    ∀ c ∈ field, c ≠ mark ∧ c ∈ cs := by
  induction cs generalizing field with
  | nil =>
    obtain rfl := List.mem_singleton.mp h
    nofun
  | cons c rest ih =>
    have later {field : List Char} (h : field ∈ fields mark rest) :
        ∀ x ∈ field, x ≠ mark ∧ x ∈ c :: rest :=
      fun x hx => (ih h x hx).imp_right (List.mem_cons_of_mem c)
    rw [fields] at h
    split at h
    · rcases List.mem_cons.mp h with rfl | h
      · nofun
      · exact later h
    · next hc =>
      split at h
      · obtain rfl := List.mem_singleton.mp h
        intro x hx
        obtain rfl := List.mem_singleton.mp hx
        exact ⟨hc, List.mem_cons_self⟩
      · next first more hfields =>
        rcases List.mem_cons.mp h with rfl | h
        · intro x hx
          rcases List.mem_cons.mp hx with rfl | hx
          · exact ⟨hc, List.mem_cons_self⟩
          · exact later (hfields ▸ List.mem_cons_self) x hx
        · exact later (hfields ▸ List.mem_cons_of_mem first h)

/-- What ends a text without marks in it ends the last field. -/
lemma exists_fields_append (cs : List Char) (hending : mark ∉ ending) :
    ∃ before last, fields mark (cs ++ ending) = before ++ [last ++ ending] := by
  induction cs with
  | nil =>
    refine ⟨[], [], ?_⟩
    rw [fields_eq_splitOn, List.nil_append, List.splitOn_eq_singleton hending]
    rfl
  | cons c rest ih =>
    obtain ⟨before, last, h⟩ := ih
    rw [List.cons_append, fields]
    split
    · exact ⟨[] :: before, last, by rw [h, List.cons_append]⟩
    · rw [h]
      cases before with
      | nil => exact ⟨[], c :: last, rfl⟩
      | cons first more => exact ⟨(c :: first) :: more, last, rfl⟩

lemma mem_intercalate {c : Char} {pieces : List (List Char)}
    (h : c ∈ [mark].intercalate pieces) : c = mark ∨ ∃ piece ∈ pieces, c ∈ piece := by
  induction pieces with
  | nil => cases h
  | cons piece rest ih =>
    cases rest with
    | nil =>
      rw [List.intercalate_singleton] at h
      exact .inr ⟨piece, List.mem_cons_self, h⟩
    | cons next more =>
      rw [List.intercalate_cons_cons, List.append_assoc, List.mem_append, List.mem_append,
        List.mem_singleton] at h
      rcases h with h | h | h
      · exact .inr ⟨piece, List.mem_cons_self, h⟩
      · exact .inl h
      · exact (ih h).imp_right fun ⟨x, hx, hc⟩ => ⟨x, List.mem_cons_of_mem piece hx, hc⟩

end Text

namespace Path

/-! ### Canonical paths -/

/-- What can stand between the slashes of a canonical path. -/
structure IsSegment (x : String) : Prop where
  ne_empty : x ≠ ""
  ne_dot : x ≠ "."
  ne_dots : x ≠ ".."
  no_slash : '/' ∉ x.toList
  no_nul : Char.ofNat 0 ∉ x.toList

/-- There is nothing in the path that following it would skip or take back. -/
def Canonical (p : Path) : Prop := ∀ x ∈ p.segments, IsSegment x

variable {cwd p q : Path} {raw name part : String}

lemma Canonical.parent (h : p.Canonical) : p.parent.Canonical :=
  fun x hx => h x (List.mem_of_mem_dropLast hx)

lemma Canonical.child (h : p.Canonical) (hpart : IsSegment part) : (p.child part).Canonical := by
  intro x hx
  rcases List.mem_append.mp hx with hx | hx
  · exact h x hx
  · obtain rfl := List.mem_singleton.mp hx
    exact hpart

lemma follow_eq_child (p : Path) (hempty : part ≠ "") (hdot : part ≠ ".") (hdots : part ≠ "..") :
    p.follow part = p.child part := by
  unfold follow
  rw [if_neg (not_or.mpr ⟨hempty, hdot⟩), if_neg hdots]

lemma follow_empty (p : Path) : p.follow "" = p := if_pos (.inl rfl)

lemma Canonical.follow (h : p.Canonical) (hslash : '/' ∉ part.toList)
    (hnul : Char.ofNat 0 ∉ part.toList) : (p.follow part).Canonical := by
  unfold Path.follow
  split
  · exact h
  · next hpart =>
    obtain ⟨hempty, hdot⟩ := not_or.mp hpart
    split
    · exact h.parent
    · next hdots => exact h.child ⟨hempty, hdot, hdots, hslash, hnul⟩

lemma Canonical.foldl_follow {parts : List String}
    (hparts : ∀ part ∈ parts, '/' ∉ part.toList ∧ Char.ofNat 0 ∉ part.toList)
    (h : p.Canonical) : (parts.foldl Path.follow p).Canonical := by
  induction parts generalizing p with
  | nil => exact h
  | cons part rest ih =>
    obtain ⟨hslash, hnul⟩ := hparts part List.mem_cons_self
    exact ih (fun x hx => hparts x (List.mem_cons_of_mem part hx)) (h.follow hslash hnul)

/-- Neither slashes nor NUL characters are left in the parts of a written path. -/
lemma parts_clean (hraw : hasNul raw = false) :
    ∀ part ∈ parts raw, '/' ∉ part.toList ∧ Char.ofNat 0 ∉ part.toList := by
  intro part hpart
  obtain ⟨field, hfield, rfl⟩ := List.mem_map.mp hpart
  rw [String.toList_ofList]
  refine ⟨fun h => (Text.mem_of_mem_fields hfield _ h).1 rfl, fun h => ?_⟩
  have hmem := (Text.mem_of_mem_fields hfield _ h).2
  rw [hasNul, List.contains_eq_mem, decide_eq_false_iff_not] at hraw
  exact hraw hmem

lemma Canonical.start (hcwd : cwd.Canonical) (raw : String) : (start cwd raw).Canonical := by
  unfold Path.start
  split
  · nofun
  · exact hcwd

/-- **Every written path leads to a canonical one.** -/
lemma Canonical.reach (hcwd : cwd.Canonical) (hraw : hasNul raw = false) :
    (reach cwd raw).Canonical :=
  (hcwd.start raw).foldl_follow (parts_clean hraw)

/-! ### Canonical paths as text -/

lemma toList_text (p : Path) :
    p.text.toList = '/' :: ['/'].intercalate (p.segments.map String.toList) := by
  rw [text, String.toList_append, String.toList_intercalate]
  rfl

/-- The segments are what stands between the slashes. -/
lemma Canonical.parts_text (h : p.Canonical) (hp : p.segments ≠ []) :
    parts p.text = "" :: p.segments := by
  have hslash : ∀ l ∈ p.segments.map String.toList, '/' ∉ l := by
    intro l hl
    obtain ⟨x, hx, rfl⟩ := List.mem_map.mp hl
    exact (h x hx).no_slash
  have hsplit := List.splitOn_intercalate '/' hslash (by simpa using hp)
  have hback : (p.segments.map String.toList).map String.ofList = p.segments := by
    rw [List.map_map]
    exact List.map_id'' (fun x => String.ofList_toList) _
  have hfields : Text.fields '/' p.text.toList = [] :: p.segments.map String.toList := by
    rw [toList_text, Text.fields, if_pos rfl, Text.fields_eq_splitOn, hsplit]
  rw [parts, hfields, List.map_cons, hback]

lemma foldl_follow_segments {xs : List String} (h : ∀ x ∈ xs, IsSegment x) (p : Path) :
    xs.foldl follow p = ⟨p.segments ++ xs⟩ := by
  induction xs generalizing p with
  | nil => simp
  | cons x rest ih =>
    have hx := h x List.mem_cons_self
    rw [List.foldl_cons, follow_eq_child p hx.ne_empty hx.ne_dot hx.ne_dots,
      ih fun y hy => h y (List.mem_cons_of_mem x hy)]
    simp [child]

/-- **A canonical path leads to itself**, whatever the working directory is. -/
lemma Canonical.reach_text (h : p.Canonical) (hp : p.segments ≠ []) (cwd : Path) :
    Path.reach cwd p.text = p := by
  have hstart : Path.start cwd p.text = ⟨[]⟩ := by
    unfold Path.start
    rw [toList_text, List.head?_cons, if_pos rfl]
  rw [Path.reach, h.parts_text hp, hstart, List.foldl_cons, follow_empty,
    foldl_follow_segments h]
  rfl

lemma Canonical.hasNul_text (h : p.Canonical) : hasNul p.text = false := by
  rw [hasNul, toList_text, List.contains_eq_mem, decide_eq_false_iff_not]
  intro hmem
  rcases List.mem_cons.mp hmem with hslash | hmem
  · exact absurd hslash (by decide)
  · rcases Text.mem_intercalate hmem with hslash | ⟨l, hl, hmem⟩
    · exact absurd hslash (by decide)
    · obtain ⟨x, hx, rfl⟩ := List.mem_map.mp hl
      exact (h x hx).no_nul hmem

/-! ### Names of source files -/

/-- The path is that of a source file: its last segment ends so. -/
def IsSource (p : Path) : Prop :=
  ∃ before last, p.segments = before ++ [last] ∧ sourceSuffix.toList <:+ last.toList

lemma IsSource.ne_nil (h : p.IsSource) : p.segments ≠ [] := by
  obtain ⟨before, last, hp, -⟩ := h
  rw [hp]
  simp

lemma IsSource.suffix_text (h : p.IsSource) : sourceSuffix.toList <:+ p.text.toList := by
  obtain ⟨before, last, hp, hlast⟩ := h
  refine hlast.trans ?_
  rw [text, hp, String.toList_append]
  cases before with
  | nil => exact ⟨['/'], by rw [List.nil_append, String.intercalate_singleton]; rfl⟩
  | cons x rest =>
    rw [String.intercalate_append_of_ne_nil (by simp) (by simp), String.intercalate_singleton,
      String.toList_append]
    exact List.suffix_append_of_suffix (List.suffix_append ..)

/-- What ends like a source file is no `.` and no `..`. -/
lemma follow_source (p : Path) (h : sourceSuffix.toList <:+ part.toList) :
    p.follow part = p.child part := by
  have hlong : 4 ≤ part.toList.length := h.length_le
  refine follow_eq_child p ?_ ?_ ?_ <;>
  · rintro rfl
    exact absurd hlong (by decide)

/-- **What is written like a source file leads to one.** -/
lemma isSource_reach (cwd : Path) (h : sourceSuffix.toList <:+ raw.toList) :
    (reach cwd raw).IsSource := by
  obtain ⟨cs, hcs⟩ := h
  obtain ⟨before, last, hfields⟩ := Text.exists_fields_append cs
    (show '/' ∉ sourceSuffix.toList by decide)
  have hlast : sourceSuffix.toList <:+ (String.ofList (last ++ sourceSuffix.toList)).toList := by
    rw [String.toList_ofList]
    exact List.suffix_append ..
  have hparts : parts raw =
      before.map String.ofList ++ [String.ofList (last ++ sourceSuffix.toList)] := by
    rw [parts, ← hcs, hfields, List.map_append, List.map_singleton]
  rw [reach, hparts, List.foldl_append, List.foldl_cons, List.foldl_nil, follow_source _ hlast]
  exact ⟨_, _, rfl, hlast⟩

lemma suffix_sourceName (name : String) : sourceSuffix.toList <:+ (sourceName name).toList := by
  unfold sourceName
  split
  · next h => exact Text.endsWith_iff.mp h
  · rw [String.toList_append]
    exact List.suffix_append ..

lemma sourceName_of_suffix (h : sourceSuffix.toList <:+ name.toList) : sourceName name = name :=
  if_pos (Text.endsWith_iff.mpr h)

/-- A name may be given with or without the ending. -/
lemma ofModuleName_append (cwd : Path) (h : ¬ sourceSuffix.toList <:+ name.toList) :
    ofModuleName cwd (name ++ sourceSuffix) = ofModuleName cwd name := by
  have hlong : sourceSuffix.toList <:+ (name ++ sourceSuffix).toList := by
    rw [String.toList_append]
    exact List.suffix_append ..
  rw [ofModuleName, ofModuleName, sourceName_of_suffix hlong, sourceName,
    if_neg (mt Text.endsWith_iff.mp h)]

/-- **Both ways to a module have the same path**, if the name of the file ends as it should. -/
lemma resolve_eq_ofModuleName (cwd : Path) (h : sourceSuffix.toList <:+ raw.toList) :
    resolve cwd raw = ofModuleName cwd raw := by
  rw [ofModuleName, sourceName_of_suffix h]

end Path

/-! ### Main files -/

namespace FileTree

variable {t : FileTree}

/-- A walk that comes to an end gets where the path leads. -/
lemma eq_of_walk {p q : Path} {parts : List String} (h : t.walk p parts = .ok q) :
    q = parts.foldl Path.follow p := by
  induction parts generalizing p with
  | nil =>
    cases h
    rfl
  | cons part rest ih =>
    unfold walk at h
    split at h
    · cases h
    · cases h
    · exact ih h

/-- A file that can be read is where its path leads. -/
lemma isFile_of_readText {raw text : String} (h : t.readText raw = .ok (.ok text)) :
    t.isFile (Path.reach t.cwd raw) = true := by
  unfold readText at h
  split at h
  · cases h
  · split at h
    · cases h
    · next bytes hbytes =>
      unfold FileTree.bytes at hbytes
      split at hbytes
      · cases hbytes
      · obtain ⟨q, hwalk, hq⟩ := exists_of_bind_eq_ok hbytes
        obtain rfl := eq_of_walk hwalk
        unfold isFile Path.reach
        split at hq
        · cases hq
        · cases hq
        · next hfile => rw [hfile]

end FileTree

namespace Path

variable {cwd p : Path} {raw name : String}

lemma reach_of_ofModuleName (hraw : sourceSuffix.toList <:+ raw.toList)
    (hp : ofModuleName cwd raw = .ok p) : hasNul raw = false ∧ reach cwd raw = p := by
  rw [ofModuleName_eq, sourceName_of_suffix hraw] at hp
  split at hp
  · cases hp
  · next hnul => exact ⟨by simpa using hnul, Except.ok.inj hp⟩

/-- What is to be said of the path to which the name of a module comes. -/
structure IsModulePath (cwd : Path) (name : String) (p : Path) : Prop where
  resolved : ofModuleName cwd name = .ok p
  absolute : p.text.toList.head? = some '/'
  /-- The text is cut at its slashes. Nothing stands before the first one. -/
  segments : parts p.text = "" :: p.segments
  canonical : p.Canonical
  ending : sourceSuffix.toList <:+ p.text.toList
  /-- The path is called by its own text, from wherever that is. -/
  again (dir : Path) : ofModuleName dir p.text = .ok p

/-- **Names of modules come to canonical paths.** -/
lemma exists_isModulePath (hcwd : cwd.Canonical) (hname : hasNul name = false) :
    ∃ p, IsModulePath cwd name p := by
  have hsource := isSource_reach cwd (suffix_sourceName name)
  have hcanonical : (reach cwd (sourceName name)).Canonical :=
    hcwd.reach ((hasNul_sourceName name).trans hname)
  refine ⟨reach cwd (sourceName name), ?_, ?_, hcanonical.parts_text hsource.ne_nil, hcanonical,
    hsource.suffix_text, fun dir => ?_⟩
  · rw [ofModuleName_eq, hname]
    rfl
  · rw [toList_text, List.head?_cons]
  · rw [ofModuleName_eq, hcanonical.hasNul_text, sourceName_of_suffix hsource.suffix_text,
      hcanonical.reach_text hsource.ne_nil]
    rfl

end Path

/-- **The module is what imports of the path find**: from here on an import by whatever name that
comes to the path is answered with it, and nothing is evaluated for that, as long as there is a file
at the path. -/
def Machine.ImportsAs (m : Machine) (p : Path) (r : Ref .module) : Prop :=
  ∀ m', Machine.Run false m m' → ∀ (host : Host) (name : String),
    Path.ofModuleName host.files.cwd name = .ok p → host.files.isFile p = true →
    ∀ parts, Evaluator.load host parts name m' = .ok (.module r) m'

lemma Machine.importsAs_of_cached {m : Machine} {p : Path} {r : Ref .module}
    (h : m.world.cache.find? p.text = some r) : m.ImportsAs p r := by
  intro m' hm' host name hname hfile parts
  rw [Evaluator.load_eq, Host.find_of_isFile hname hfile, hm'.grows.find? h]

/-- What becomes of the cache, and of the current module, when the module of a file is opened. -/
lemma Eval.openModule_of_source {host : Host} {raw : String} {p : Path}
    (hraw : Path.sourceSuffix.toList <:+ raw.toList)
    (hp : Path.ofModuleName host.files.cwd raw = .ok p) (m : Machine) :
    ∃ scope m₁ r, openModule host raw m = .ok scope m₁ ∧ m₁.module = some r ∧
      m₁.world.cache.find? p.text = some r ∧
      ∀ key, key ≠ p.text → m₁.world.cache.find? key = m.world.cache.find? key := by
  obtain ⟨hnul, rfl⟩ := Path.reach_of_ofModuleName hraw hp
  have hsome : raw.isEmpty = false := by
    by_contra hempty
    rw [Bool.not_eq_false, String.isEmpty_iff] at hempty
    exact absurd (hempty ▸ hraw) (by decide)
  obtain ⟨scope, hopen⟩ := openModule_eq host hsome hnul m
  refine ⟨scope, _, _, hopen, rfl, m.find?_having _, fun key hkey => ?_⟩
  cases h : m.world.cache.find? (Path.reach host.files.cwd raw).text with
  | some r => rw [(Machine.having_of_cached h).1]
  | none =>
    rw [(Machine.having_of_new h).1]
    exact (OrderedMap.find?_insert ..).trans (if_neg hkey.symm)

/-- **Paths of modules are canonical, and a main file is imported as the module that runs.**

* A name without NUL characters comes to a path that is absolute, has no empty segment, no `.` and
  no `..`, and ends like a source file. Called by its path, a module has the same path again.
* A name comes to the same path with the ending of source files and without it.
* The module of a file that is named like a source file is opened under the path to which imports of
  the file come, and no other entry of the cache changes. From then on all imports that come to this
  path are answered with the module that was opened, in the same turn and in all later turns of the
  sessions that use the cache. If the file has been read, there is a file at the path. -/
theorem Host.module_paths_are_canonical (host : Host) (hcwd : host.files.cwd.Canonical) :
    (∀ name, Path.hasNul name = false → ∃ p, Path.IsModulePath host.files.cwd name p) ∧
    (∀ name, ¬ Path.sourceSuffix.toList <:+ name.toList →
      Path.ofModuleName host.files.cwd (name ++ Path.sourceSuffix) =
        Path.ofModuleName host.files.cwd name) ∧
    ∀ raw, Path.sourceSuffix.toList <:+ raw.toList →
      Path.resolve host.files.cwd raw = Path.ofModuleName host.files.cwd raw ∧
      ∀ p, Path.ofModuleName host.files.cwd raw = .ok p →
        (∀ text, host.files.readText raw = .ok (.ok text) → host.files.isFile p = true) ∧
        (∀ m, ∃ scope m₁ r, Eval.openModule host raw m = .ok scope m₁ ∧ m₁.module = some r ∧
          m₁.world.cache.find? p.text = some r ∧
          (∀ key, key ≠ p.text → m₁.world.cache.find? key = m.world.cache.find? key) ∧
          m₁.ImportsAs p r) ∧
        ∀ (e : Engine) (i : Nat), ∃ r,
          ((e.turn i (Eval.openModule host raw)).2.sessions.get i).module = some r ∧
          ∀ q, (e.turn i (Eval.openModule host raw)).2.Leads q →
            ∀ j, (q.sessions.get j).cache = (e.sessions.get i).cache →
              (q.machine j).ImportsAs p r := by
  refine ⟨fun name hname => Path.exists_isModulePath hcwd hname,
    fun name hname => Path.ofModuleName_append _ hname, fun raw hraw =>
    ⟨Path.resolve_eq_ofModuleName _ hraw, fun p hp => ⟨fun text htext => ?_, fun m => ?_,
      fun e i => ?_⟩⟩⟩
  · rw [← (Path.reach_of_ofModuleName hraw hp).2]
    exact FileTree.isFile_of_readText htext
  · obtain ⟨scope, m₁, r, hopen, hmodule, hfind, hothers⟩ := Eval.openModule_of_source hraw hp m
    exact ⟨scope, m₁, r, hopen, hmodule, hfind, hothers, Machine.importsAs_of_cached hfind⟩
  · obtain ⟨scope, m₁, r, hopen, hmodule, hfind, -⟩ :=
      Eval.openModule_of_source hraw hp (e.machine i)
    refine ⟨r, ?_, fun q hq j hj => Machine.importsAs_of_cached ?_⟩
    · rw [Engine.turn_snd, EStateM.after_of_ok hopen]
      exact (congrArg Session.module (Arena.get_set_self ..)).trans hmodule
    · have hcache := hq.grows (e.sessions.get i).cache
      rw [Engine.get_caches_turn, if_pos rfl, EStateM.after_of_ok hopen] at hcache
      show (q.caches.get (q.sessions.get j).cache).find? p.text = some r
      rw [hj]
      exact hcache.find? hfind

/-- A directory with one source file. -/
private def mainHost : Host where
  files := (FileTree.empty ⟨["W"]⟩).write "main.wei" (.file "m".toUTF8)
  parse _ _ := .program ⟨[]⟩
  reader := Text.line?

/-- A main file is opened by a path with detours. By another one, and without its ending, it is
imported as the module that is current. -/
theorem Host.main_file_by_other_name :
    let start := Engine.initial.newSession false .standard none
    let opened := (start.turn 0 (Eval.openModule mainHost ".//sub/../main.wei")).2
    mainHost.files.cwd.Canonical ∧
    Path.ofModuleName mainHost.files.cwd ".//sub/../main.wei" = .ok ⟨["W", "main.wei"]⟩ ∧
    Path.ofModuleName mainHost.files.cwd "/../W/./main" = .ok ⟨["W", "main.wei"]⟩ ∧
    mainHost.files.isFile ⟨["W", "main.wei"]⟩ = true ∧
    ∃ r, (opened.sessions.get 0).module = some r ∧ ∀ parts,
      Evaluator.load mainHost parts "/../W/./main" (opened.machine 0) =
        .ok (.module r) (opened.machine 0) := by
  intro start opened
  have hcwd : mainHost.files.cwd.Canonical := by
    intro x hx
    obtain rfl := List.mem_singleton.mp hx
    exact ⟨by decide, by decide, by decide, by decide, by decide⟩
  have hraw : Path.ofModuleName mainHost.files.cwd ".//sub/../main.wei" =
      .ok ⟨["W", "main.wei"]⟩ := by decide +kernel
  have hname : Path.ofModuleName mainHost.files.cwd "/../W/./main" =
      .ok ⟨["W", "main.wei"]⟩ := by decide +kernel
  have hfile : mainHost.files.isFile ⟨["W", "main.wei"]⟩ = true := by decide +kernel
  have hending : Path.sourceSuffix.toList <:+ (".//sub/../main.wei" : String).toList := by decide
  obtain ⟨r, hmodule, himports⟩ :=
    ((Host.module_paths_are_canonical mainHost hcwd).2.2 _ hending).2 _ hraw |>.2.2 start 0
  refine ⟨hcwd, hraw, hname, hfile, r, hmodule, fun parts => ?_⟩
  exact himports opened .refl 0 rfl _ .refl mainHost _ hname hfile parts

end Wei
