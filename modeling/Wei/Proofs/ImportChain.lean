import Mathlib.Data.List.Perm.Subperm
import Wei.Proofs.Imports
import Wei.Proofs.Propagation

/-!
Imports inside of each other. The text of a module is evaluated in a frame of its own, and as long
as it is, imports of other modules may be evaluated in it. A module is in the cache before its text
is evaluated and its path is not imported again, so the paths of the texts that are evaluated inside
of each other are all different, and there are no more of them than files.
-/

namespace Wei

/-- The paths of all that the host has, as text. -/
def FileTree.paths (t : FileTree) : List String := t.entries.keys.map Path.text

lemma FileTree.text_mem_paths {t : FileTree} {p : Path} (h : t.isFile p = true) :
    p.text ∈ t.paths := by
  refine List.mem_map_of_mem ((OrderedMap.contains_iff _ _).mp ?_)
  unfold isFile at h
  unfold OrderedMap.contains
  cases hp : t.entries.find? p with
  | none => simp [hp] at h
  | some entry => rfl

/-- Inside of the first state, the text of the module at a path has come to be evaluated. -/
structure Machine.Enters (m : Machine) (path : String) (m' : Machine) : Prop where
  frames : (path, "<module>") :: m.origins <:+ m'.origins
  new : m.world.cache.contains path = false
  cached : m'.world.cache.contains path = true

namespace Evaluator

variable {host : Host} {rounds depth : Nat} {parts : Evaluator} {t t' : Task} {m m' : Machine}

/-! ### Parts inside of constructs -/

/-- The parts of a construct that respects congruences are evaluated inside of it. -/
lemma Evaluates.inside {α : Type} {construct : Evaluator → Eval α}
    (h : parts.Evaluates construct m t m')
    (hparts : (LocalCongruence.inside host m).Relates parts parts)
    (hc : ∀ q, (LocalCongruence.inside host m).Relates parts q →
      (construct parts).AgreesInside host m (construct q)) : m.Inside m' := by
  by_contra hout
  obtain ⟨other, hagree, hne⟩ := h
  -- the evaluators differ in one state, and that is not inside
  have key (t₁ : Task) (hself : (parts.run t₁).AgreesInside host m (parts.run t₁)) :
      (parts.run t₁).AgreesInside host m (other.run t₁) := by
    refine ⟨hself.keeps, hself.loads, fun {m₁} hm₁ => hagree t₁ m₁ fun heq => ?_⟩
    obtain ⟨-, rfl⟩ := Prod.mk.inj heq
    exact hout hm₁
  have hrel : (LocalCongruence.inside host m).Relates parts other :=
    ⟨fun scope e => key (.expr scope e) (hparts.expr scope e),
      fun scope s => key (.stmt scope s) (hparts.stmt scope s),
      fun v => key (.walk v) (hparts.walk v)⟩
  exact hne ((hc other hrel).agrees (.refl m)).symm

/-- Parts of expressions, statements and walks. -/
lemma Evaluates.deepen_inside
    (h : (ofDepth (load host) rounds depth).Evaluates
      (fun ps => (ps.deepen (load host) rounds).run t) m t' m') : m.Inside m' := by
  refine h.inside (ofDepth_agreesInside host m rounds depth) fun q hq => ?_
  have hd := hq.deepen (load_agreesInside hq) rounds
  cases t with
  | expr scope e => exact hd.expr scope e
  | stmt scope s => exact hd.stmt scope s
  | walk v => exact hd.walk v

/-- Parts of what a host has evaluated. -/
lemma Evaluates.evaluateOver_inside {n : Node} {scope : Ref .scope}
    (h : (ofDepth (load host) rounds depth).Evaluates (fun ps => Eval.evaluateOver ps n scope) m t
      m') : m.Inside m' := by
  refine h.inside (ofDepth_agreesInside host m rounds depth) fun q hq => ?_
  have hreset : Eval.resetReport.AgreesInside host m Eval.resetReport :=
    .of_within (fun _ => .of_eq rfl rfl) fun _ => .of_eq rfl rfl
  exact hreset.bind fun _ =>
    (hq.node scope n).outsideLoops.takingReturn.boundingDepth.recording.atBottom

/-- Statements of the text of a module. -/
lemma Evaluates.program_inside {scope : Ref .scope} {p : Program}
    (h : (ofDepth (load host) rounds depth).Evaluates (fun ps => ps.program scope p) m t m') :
    m.Inside m' :=
  h.inside (ofDepth_agreesInside host m rounds depth) fun _ hq => hq.program scope p

/-! ### From an import to the text of its module -/

/-- What an import evaluates is the text of a module. -/
lemma Evaluates.load_enters {name : String}
    (h : (ofDepth (load host) rounds depth).Evaluates (fun ps => load host ps name) m t m') :
    ∃ path ∈ host.files.paths, m.Enters path m' := by
  obtain ⟨other, hagree, hne⟩ := h
  rcases load_cases host name m with ⟨_, hsame⟩ | ⟨path, p, hfind, hread, hnew, hload⟩
  · exact absurd (hsame other _) hne
  · -- the state in which the text starts
    let m₁ : Machine := { (m.reading host path).addModule path with
      module := some ⟨m.world.store.modules.size⟩
      stack := m.stack.push path "<module>" }
    have htext : (ofDepth (load host) rounds depth).Evaluates
        (fun ps => ps.program ⟨m.world.store.scopes.size⟩ p) m₁ t m' :=
      ⟨other, hagree, fun heq =>
        hne ((hload other).trans ((moduleText_congr heq).trans (hload _).symm))⟩
    have hin := htext.program_inside
    have hcached : m₁.world.cache.contains path = true := by
      simp [m₁, Machine.addModule, OrderedMap.contains]
    obtain ⟨f, _, hfile, rfl, _⟩ := Host.exists_of_find_eq_file hfind
    exact ⟨_, FileTree.text_mem_paths hfile, hin.frames, hnew,
      hin.cache.contains hcached⟩

/-- A statement among the parts of an import is one of the text of a module. -/
lemma Evaluates.enters {scope scope' : Ref .scope} {e : Expr} {s : Stmt}
    (h : (ofDepth (load host) rounds depth).Evaluates
      (fun ps => (ps.deepen (load host) rounds).run (.expr scope (.load e))) m
      (.stmt scope' s) m') :
    ∃ path ∈ host.files.paths, m.Enters path m' := by
  have hself := ofDepth_agreesInside host m rounds depth
  obtain ⟨other, hagree, hne⟩ := h
  change (other.expr scope e >>= fun v => _) m ≠
    ((ofDepth (load host) rounds depth).expr scope e >>= fun v => _) m at hne
  -- the name is evaluated by an expression, over which the two agree
  have hexpr : other.expr scope e m = (ofDepth (load host) rounds depth).expr scope e m :=
    (hagree (.expr scope e) m nofun).symm
  cases hv : (ofDepth (load host) rounds depth).expr scope e m with
  | error x m₁ =>
    rw [EStateM.bind_of_error (hexpr.trans hv), EStateM.bind_of_error hv] at hne
    exact absurd rfl hne
  | ok v m₁ =>
    rw [EStateM.bind_of_ok (hexpr.trans hv), EStateM.bind_of_ok hv] at hne
    cases v with
    | str t =>
      have hload : ∃ name, (ofDepth (load host) rounds depth).Evaluates
          (fun ps => load host ps name) m₁ (.stmt scope' s) m' := by
        change (Eval.orCrash t.encode >>= fun name => load host other name) m₁ ≠
          (Eval.orCrash t.encode >>= fun name => load host _ name) m₁ at hne
        cases ht : t.encode with
        | error c =>
          rw [ht] at hne
          exact absurd rfl hne
        | ok name =>
          rw [ht, Eval.orCrash_ok_bind, Eval.orCrash_ok_bind] at hne
          exact ⟨name, other, hagree, hne⟩
      obtain ⟨name, hload⟩ := hload
      obtain ⟨path, hpath, henters⟩ := hload.load_enters
      have hplace := (hself.expr scope e).keeps m
      have hloads := (hself.expr scope e).loads m
      rw [EStateM.after_of_ok hv] at hplace hloads
      refine ⟨path, hpath, ?_, ?_, henters.cached⟩
      · rw [← hplace.origins_eq]
        exact henters.frames
      · exact hloads.grows.not_contains henters.new
    | _ => exact absurd rfl hne

end Evaluator

/-! ### Texts inside of each other -/

/-- The texts at these paths are evaluated inside of each other, the outermost first, from the first
state to the second. -/
structure Machine.Nests (host : Host) (m : Machine) (paths : List String) (m' : Machine) :
    Prop where
  inside : m.Inside m'
  nodup : paths.Nodup
  file : ∀ path ∈ paths, path ∈ host.files.paths
  new : ∀ path ∈ paths, m.world.cache.contains path = false
  cached : ∀ path ∈ paths, m'.world.cache.contains path = true
  /-- Each text has its frame, and the frames of the first state are below all of them. -/
  frames : ((paths.map fun path => (path, "<module>")).reverse ++ m.origins).Sublist m'.origins

namespace Machine

variable {host : Host} {m m₁ m' : Machine} {path : String} {paths : List String}

namespace Nests

lemma nil (m : Machine) : m.Nests host [] m :=
  ⟨.refl m, List.nodup_nil, nofun, nofun, nofun, .refl _⟩

/-- A part that is no text adds no path. -/
lemma part (h : m.Inside m₁) (hrest : m₁.Nests host paths m') : m.Nests host paths m' where
  inside := h.trans hrest.inside
  nodup := hrest.nodup
  file := hrest.file
  new q hq := h.cache.not_contains (hrest.new q hq)
  cached := hrest.cached
  frames := ((List.Sublist.refl _).append h.frames.sublist).trans hrest.frames

/-- A text adds its path, which none of the texts inside of it has: they are not in the cache when
it starts, and its own module is. -/
lemma text (h : m.Inside m₁) (hfile : path ∈ host.files.paths) (henters : m.Enters path m₁)
    (hrest : m₁.Nests host paths m') : m.Nests host (path :: paths) m' where
  inside := h.trans hrest.inside
  nodup := by
    refine List.nodup_cons.mpr ⟨fun hmem => ?_, hrest.nodup⟩
    have hnew := hrest.new path hmem
    rw [henters.cached] at hnew
    cases hnew
  file := List.forall_mem_cons.mpr ⟨hfile, hrest.file⟩
  new := List.forall_mem_cons.mpr ⟨henters.new, fun q hq =>
    h.cache.not_contains (hrest.new q hq)⟩
  cached := List.forall_mem_cons.mpr
    ⟨hrest.inside.cache.contains henters.cached, hrest.cached⟩
  frames := by
    rw [List.map_cons, List.reverse_cons, List.append_assoc]
    exact ((List.Sublist.refl _).append henters.frames.sublist).trans hrest.frames

/-- There are no more texts inside of each other than files. -/
lemma length_le (h : m.Nests host paths m') : paths.length ≤ host.files.entries.size := by
  calc paths.length ≤ host.files.paths.length := (h.nodup.subperm h.file).length_le
    _ = host.files.entries.size := by
      rw [FileTree.paths, List.length_map, OrderedMap.keys, List.length_map, OrderedMap.size]

end Nests

end Machine

/-- The second task is a statement of the text that the first imports. -/
def Task.Imports : Task → Task → Prop
  | .expr _ (.load _), .stmt _ _ => True
  | _, _ => False

namespace Evaluator

/-- The evaluation of a task at some depth comes to evaluate another one, as a part of a part and so
on, and these are the paths of the texts on the way, outermost first. A text is known by the frame
that it has right above those of the import. -/
inductive Importing (load : Loader) (rounds : Nat) :
    Nat → Task → Machine → List String → Nat → Task → Machine → Prop
  | self (depth : Nat) (t : Task) (m : Machine) : Importing load rounds depth t m [] depth t m
  | part {depth depth' : Nat} {t t' t'' : Task} {m m' m'' : Machine} {paths : List String} :
    (ofDepth load rounds depth).Evaluates (fun ps => (ps.deepen load rounds).run t) m t' m' →
      ¬ t.Imports t' → Importing load rounds depth t' m' paths depth' t'' m'' →
      Importing load rounds (depth + 1) t m paths depth' t'' m''
  | text {depth depth' : Nat} {t t' t'' : Task} {m m' m'' : Machine} {path : String}
      {paths : List String} :
    (ofDepth load rounds depth).Evaluates (fun ps => (ps.deepen load rounds).run t) m t' m' →
      t.Imports t' → (path, "<module>") :: m.origins <:+ m'.origins →
      Importing load rounds depth t' m' paths depth' t'' m'' →
      Importing load rounds (depth + 1) t m (path :: paths) depth' t'' m''

variable {host : Host} {rounds depth depth' : Nat} {t t' : Task} {m m' : Machine}

lemma Evaluates.enters_of_imports
    (h : (ofDepth (load host) rounds depth).Evaluates
      (fun ps => (ps.deepen (load host) rounds).run t) m t' m') (himports : t.Imports t') :
    ∃ path ∈ host.files.paths, m.Enters path m' := by
  unfold Task.Imports at himports
  split at himports
  · exact h.enters
  · exact himports.elim

/-- Whatever comes to be evaluated, there is a list of the texts on the way to it. -/
lemma Reaches.exists_importing (h : Reaches (load host) rounds depth t m depth' t' m') :
    ∃ paths, Importing (load host) rounds depth t m paths depth' t' m' := by
  induction h with
  | self depth t m => exact ⟨[], .self depth t m⟩
  | @part depth depth' t t' t'' m m' m'' hpart _ ih =>
    obtain ⟨paths, ih⟩ := ih
    by_cases himports : t.Imports t'
    · obtain ⟨path, _, henters⟩ := hpart.enters_of_imports himports
      exact ⟨path :: paths, .text hpart himports henters.frames ih⟩
    · exact ⟨paths, .part hpart himports ih⟩

/-- **The texts on the way are evaluated inside of each other.** -/
theorem Importing.nests {paths : List String}
    (h : Importing (load host) rounds depth t m paths depth' t' m') : m.Nests host paths m' := by
  induction h with
  | self depth t m => exact .nil m
  | part hpart _ _ ih => exact .part hpart.deepen_inside ih
  | @text depth depth' t t' t'' m m₁ m' path paths hpart himports hframe _ ih =>
    obtain ⟨path', hfile, henters⟩ := hpart.enters_of_imports himports
    -- there is only one frame right above those of the import
    obtain rfl : path = path' := by
      have hlength : ((path, "<module>") :: m.origins).length =
          ((path', "<module>") :: m.origins).length := rfl
      have heq := (List.suffix_of_suffix_length_le hframe henters.frames hlength.le).eq_of_length
        hlength
      exact (Prod.mk.inj (List.cons.inj heq).1).1
    exact .text hpart.deepen_inside hfile henters ih

end Evaluator

end Wei
