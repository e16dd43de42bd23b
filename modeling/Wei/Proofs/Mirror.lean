import Wei.Proofs.Reachable
import Wei.Proofs.Reflection

/-!
Evaluation does not depend on the numbers of cells. Whatever a session evaluates in a state, it
comes to the same in an image of the state: to the renamed answer or exit, with the same texts
printed and the same report, and it leaves an image of the state that it leaves here. What the
store has outside of the image stays as it is.

The memory of source files need not be the same in both states, as long as it is right about the
files: then tracebacks show the same lines.
-/

namespace Wei

/-! ### Source files -/

/-- What tracebacks show of a file: its text, or nothing if it cannot be read. -/
def FileTree.source (files : FileTree) (path : String) : Except Crash (Option String) :=
  match files.readText path with
  | .error c => .error c
  | .ok (.error _) => .ok none
  | .ok (.ok text) => .ok (some text)

/-- What is remembered of each file is what there is to be shown of it. -/
def SourceMemory.Faithful (files : FileTree) (mem : SourceMemory) : Prop :=
  ∀ e ∈ mem.recent, files.source e.1 = .ok e.2

/-- The result with a state. -/
def Except.within {ε σ α : Type} (s : σ) : Except ε α → EStateM.Result ε σ α
  | .ok a => .ok a s
  | .error e => .error e s

/-- What is answered depends on the files only, and the memory stays right about them. -/
def SourceM.Determined (files : FileTree) {α : Type} (x : SourceM α) : Prop :=
  ∃ r : Except Crash α, ∀ mem : SourceMemory, mem.Faithful files →
    ∃ mem' : SourceMemory, mem'.Faithful files ∧ x mem = Except.within mem' r

namespace SourceM.Determined

variable {files : FileTree} {α β : Type}

lemma pure (a : α) : Determined files (Pure.pure a) := ⟨.ok a, fun mem h => ⟨mem, h, rfl⟩⟩

lemma throw (c : Crash) : Determined files (throw c : SourceM α) :=
  ⟨.error c, fun mem h => ⟨mem, h, rfl⟩⟩

lemma bind {x : SourceM α} {g : α → SourceM β} (hx : Determined files x)
    (hg : ∀ a, Determined files (g a)) : Determined files (x >>= g) := by
  obtain ⟨r, hr⟩ := hx
  cases r with
  | error c =>
    refine ⟨.error c, fun mem h => ?_⟩
    obtain ⟨mem', h', hx⟩ := hr mem h
    refine ⟨mem', h', ?_⟩
    show EStateM.bind x g mem = _
    unfold EStateM.bind
    rw [hx]
    rfl
  | ok a =>
    obtain ⟨r, hr'⟩ := hg a
    refine ⟨r, fun mem h => ?_⟩
    obtain ⟨mem', h', hx⟩ := hr mem h
    obtain ⟨mem'', h'', hga⟩ := hr' mem' h'
    refine ⟨mem'', h'', ?_⟩
    show EStateM.bind x g mem = _
    unfold EStateM.bind
    rw [hx]
    exact hga

end SourceM.Determined

namespace SourceM

variable {files : FileTree}

lemma faithful_remember {mem : SourceMemory} (h : mem.Faithful files) {path : String}
    {text : Option String} (hp : files.source path = .ok text) :
    (mem.remember path text).Faithful files := by
  intro e he
  rcases List.mem_cons.mp (List.mem_of_mem_take he) with rfl | he
  · exact hp
  · exact h e (List.mem_filter.mp he).1

lemma fetch_determined (files : FileTree) (path : String) :
    Determined files (fetch files path) := by
  refine ⟨files.source path, fun mem h => ?_⟩
  unfold fetch
  cases hl : OrderedMap.lookup path mem.recent with
  | some text =>
    have hp : files.source path = .ok text := h _ (OrderedMap.mem_entries_of_lookup hl)
    rw [hp]
    exact ⟨_, faithful_remember h hp, rfl⟩
  | none =>
    dsimp only
    cases hread : files.readText path with
    | error c =>
      have hp : files.source path = .error c := by unfold FileTree.source; rw [hread]
      rw [hp]
      exact ⟨mem, h, rfl⟩
    | ok read =>
      cases read with
      | error refusal =>
        have hp : files.source path = .ok none := by unfold FileTree.source; rw [hread]
        rw [hp]
        exact ⟨_, faithful_remember h hp, rfl⟩
      | ok text =>
        have hp : files.source path = .ok (some text) := by unfold FileTree.source; rw [hread]
        rw [hp]
        exact ⟨_, faithful_remember h hp, rfl⟩

lemma frameLines_determined (reader : LineReader) (files : FileTree) (frames : List Frame) :
    Determined files (frameLines reader files frames) := by
  induction frames with
  | nil => exact .pure []
  | cons frame rest ih =>
    refine .bind ?_ fun text => .bind ih fun lines => .pure _
    unfold sourceLine
    split
    · exact .pure ""
    · refine .bind (fetch_determined files frame.path) fun text => ?_
      cases text with
      | none => exact .pure ""
      | some text => exact .pure _

lemma traceback_determined (reader : LineReader) (files : FileTree) (r : Report) :
    Determined files (traceback reader files r) := by
  unfold traceback
  cases r.fault with
  | none => exact .throw _
  | some fault => exact .bind (frameLines_determined reader files r.frames) fun frames => .pure _

end SourceM

/-! ### Images of states -/

/-- The state `n` holds an image of the state `m`. -/
structure Machine.Image (f : Renaming) (base : Store) (files : FileTree) (m n : Machine) :
    Prop where
  store : Store.Image f base m.world.store n.world.store
  cache : n.world.cache = f.on m.world.cache
  out : n.world.out = m.world.out
  module : n.module = f.on m.module
  stack : n.stack = m.stack
  report : n.report = m.report
  err : n.err = m.err
  parsed : n.parsed = m.parsed
  faithful : m.sources.Faithful files
  faithful' : n.sources.Faithful files

namespace Machine.Image

variable {f : Renaming} {base : Store} {files : FileTree} {m n : Machine}
variable (h : Machine.Image f base files m n)
include h

lemma modulePath : n.modulePath = m.modulePath := by
  unfold Machine.modulePath
  rw [h.module]
  cases m.module with
  | none => rfl
  | some r =>
    obtain ⟨q, hq⟩ := h.store.exists_module r
    show (n.world.store.module (f.on r)).path = _
    rw [hq]
    rfl

lemma withStack (g : CallStack → CallStack) :
    Machine.Image f base files { m with stack := g m.stack } { n with stack := g n.stack } :=
  { h with stack := congrArg g h.stack }

lemma withReport (g : Report → Report) :
    Machine.Image f base files { m with report := g m.report } { n with report := g n.report } :=
  { h with report := congrArg g h.report }

lemma recordFault (e : Fault) :
    Machine.Image f base files (m.recordFault e) (n.recordFault e) := by
  refine { h with report := ?_ }
  show n.report.record e n.stack.snapshot = m.report.record e m.stack.snapshot
  rw [h.report, h.stack]

end Machine.Image

/-- **The two evaluations come to the same**, up to the renaming, in a sound state and in an image
of it. -/
def Eval.Mirrors (f : Renaming) (base : Store) (files : FileTree) {α : Type} [Renamable α]
    (x y : Eval α) (m n : Machine) : Prop :=
  m.Sound false → Machine.Image f base files m n →
    f.Matches (Machine.Image f base files) (x m) (y n)

/-- What a session may do if trees need not conform. -/
abbrev Eval.Behaves {α : Type} (x : Eval α) (m : Machine) (Q : Store → α → Prop) : Prop :=
  x.Does (.lenient false) m Q

namespace Eval.Mirrors

variable {f : Renaming} {base : Store} {files : FileTree} {m n : Machine}
variable {α β : Type} [Renamable α] [Renamable β] {x y x' y' : Eval α}

/-! ### Operations -/

lemma pure {a b : α} (h : b = f.on a) : Mirrors f base files (pure a) (pure b) m n :=
  fun _ hi => ⟨h, hi⟩

lemma throw {e d : Exit} (h : d = f.on e) :
    Mirrors f base files (throw e : Eval α) (throw d) m n :=
  fun _ hi => ⟨h, hi⟩

lemma fault {e d : Fault} (h : d = e) :
    Mirrors f base files (Eval.fault e : Eval α) (Eval.fault d) m n :=
  fun _ hi => ⟨congrArg Exit.fault h, hi⟩

/-- The states are known to be sound and an image. -/
lemma of_image (h : m.Sound false → Machine.Image f base files m n →
    Mirrors f base files x y m n) : Mirrors f base files x y m n :=
  fun hm hi => h hm hi hm hi

/-- One evaluation after the other, where the second may count on what the first came to. -/
lemma bind_of_eq {g k : α → Eval β} {P : Store → α → Prop} (hx : Mirrors f base files x y m n)
    (hd : x.Behaves m P)
    (hg : ∀ a m' n', x m = .ok a m' → m.census ≤ m'.census → P m'.world.store a →
      Mirrors f base files (g a) (k (f.on a)) m' n') :
    Mirrors f base files (x >>= g) (y >>= k) m n := by
  intro hm hi
  refine (hx hm hi).bind fun a m' n' ha hi' => ?_
  have hc := hd hm
  rw [ha] at hc
  exact hg a m' n' ha (hc.1.census_le hm) hc.2 (hc.1.sound hm) hi'

/-- One evaluation after the other. -/
lemma bind {g k : α → Eval β} {P : Store → α → Prop} (hx : Mirrors f base files x y m n)
    (hd : x.Behaves m P)
    (hg : ∀ a m' n', m.census ≤ m'.census → P m'.world.store a →
      Mirrors f base files (g a) (k (f.on a)) m' n') :
    Mirrors f base files (x >>= g) (y >>= k) m n :=
  hx.bind_of_eq hd fun a m' n' _ => hg a m' n'

/-- What is answered is put into something else. -/
lemma bind_pure {g k : α → β} (hx : Mirrors f base files x y m n)
    (hg : ∀ a, k (f.on a) = f.on (g a)) :
    Mirrors f base files (x >>= fun a => Pure.pure (g a)) (y >>= fun a => Pure.pure (k a)) m n :=
  fun hm hi => (hx hm hi).bind_pure hg

/-- Something that only serves the host comes first. -/
lemma aside_bind {a : α} {m' n' : Machine} {g k : α → Eval β} (hx : x m = .ok a m')
    (hy : y n = .ok (f.on a) n') (hw : m'.world = m.world) (hmod : m'.module = m.module)
    (hi : Machine.Image f base files m n → Machine.Image f base files m' n')
    (hg : Mirrors f base files (g a) (k (f.on a)) m' n') :
    Mirrors f base files (x >>= g) (y >>= k) m n := by
  intro hm h
  have hm' : m'.Sound false :=
    Machine.Step.sound (.aside hw fun r hr => hm.module r (hmod ▸ hr)) hm
  show f.Matches _ (EStateM.bind x g m) (EStateM.bind y k n)
  unfold EStateM.bind
  rw [hx, hy]
  exact hg hm' (hi h)

lemma ite {c c' : Prop} [Decidable c] [Decidable c'] (hc : c' ↔ c)
    (hx : c → Mirrors f base files x y m n) (hx' : ¬ c → Mirrors f base files x' y' m n) :
    Mirrors f base files (if c then x else x') (if c' then y else y') m n := by
  by_cases h : c
  · rw [if_pos h, if_pos (hc.mpr h)]
    exact hx h
  · rw [if_neg h, if_neg (mt hc.mp h)]
    exact hx' h

lemma store_bind {g k : Store → Eval β}
    (h : Mirrors f base files (g m.world.store) (k n.world.store) m n) :
    Mirrors f base files (Eval.store >>= g) (Eval.store >>= k) m n := h

lemma get_bind {g k : Machine → Eval β} (h : Mirrors f base files (g m) (k n) m n) :
    Mirrors f base files (get >>= g) (get >>= k) m n := h

lemma onStore {u v : StoreM α}
    (h : Store.Image f base m.world.store n.world.store →
      f.Matches (Store.Image f base) (u m.world.store) (v n.world.store)) :
    Mirrors f base files (Eval.onStore u) (Eval.onStore v) m n := by
  intro hm hi
  have h := h hi.store
  rw [Eval.onStore_eq, Eval.onStore_eq]
  generalize u m.world.store = r, v n.world.store = r' at h ⊢
  rcases h.cases with ⟨a, s, t, rfl, rfl, hi'⟩ | ⟨e, s, t, rfl, rfl, hi'⟩
  · exact ⟨rfl, { hi with store := hi' }⟩
  · exact ⟨rfl, { hi with store := hi' }⟩

lemma askStore {u v : Store → Except Fault α}
    (h : Store.Image f base m.world.store n.world.store →
      v n.world.store = f.on (u m.world.store)) :
    Mirrors f base files (Eval.askStore u) (Eval.askStore v) m n := by
  intro hm hi
  unfold Eval.askStore
  rw [h hi.store]
  cases u m.world.store with
  | ok a => exact ⟨rfl, hi⟩
  | error e => exact ⟨rfl, hi⟩

lemma builtin (b : Builtin) (args : List Value) :
    Mirrors f base files (Eval.onWorld (b.call args)) (Eval.onWorld (b.call (f.on args))) m n := by
  intro hm hi
  rw [Eval.onWorld_eq, Eval.onWorld_eq]
  unfold Builtin.call
  rw [hi.store.builtinOutcome, hi.store.builtinOutput]
  have hout := congrArg (· ++ b.output m.world.store args) hi.out
  cases b.outcome m.world.store args with
  | ok v => exact ⟨rfl, { hi with out := hout }⟩
  | error e => exact ⟨rfl, { hi with out := hout }⟩

lemma atLine (line : Int) :
    Mirrors f base files (Eval.atLine line) (Eval.atLine line) m n := by
  intro hm hi
  refine ⟨rfl, ?_⟩
  split
  · exact hi
  · exact hi.withStack (·.setLine line)

lemma orCrash {u v : Except Crash α} (h : v = f.on u) :
    Mirrors f base files (Eval.orCrash u) (Eval.orCrash v) m n := by
  subst h
  cases u with
  | ok a => exact .pure rfl
  | error c => exact .throw rfl

/-- The host may fail on the way, in both states alike. -/
lemma crashing {γ : Type} {u v : Except Crash γ} {x y : γ → Eval α} (h : v = u)
    (hxy : ∀ a, Mirrors f base files (x a) (y a) m n) :
    Mirrors f base files (Eval.orCrash u >>= x) (Eval.orCrash v >>= y) m n := by
  subst h
  cases v with
  | ok a => exact hxy a
  | error c => exact .throw rfl

lemma onSources {u : SourceM α} (hu : u.Determined files) (hfix : ∀ a : α, f.on a = a) :
    Mirrors f base files (Eval.onSources u) (Eval.onSources u) m n := by
  intro hm hi
  obtain ⟨r, hr⟩ := hu
  obtain ⟨mem, hmem, hum⟩ := hr m.sources hi.faithful
  obtain ⟨mem', hmem', hun⟩ := hr n.sources hi.faithful'
  unfold Eval.onSources
  rw [hum, hun]
  cases r with
  | ok a => exact ⟨(hfix a).symm, { hi with faithful := hmem, faithful' := hmem' }⟩
  | error c => exact ⟨rfl, { hi with faithful := hmem, faithful' := hmem' }⟩

/-! ### Around an evaluation -/

lemma withFrame (path function : String)
    (h : Mirrors f base files x y { m with stack := m.stack.push path function }
      { n with stack := n.stack.push path function }) :
    Mirrors f base files (Eval.withFrame path function x) (Eval.withFrame path function y) m n := by
  intro hm hi
  have h := h ⟨hm.store, hm.cache, hm.module⟩ (hi.withStack (·.push path function))
  unfold Eval.withFrame
  generalize x _ = r, y _ = r' at h ⊢
  rcases h.cases with ⟨a, m₁, n₁, rfl, rfl, hi'⟩ | ⟨e, m₁, n₁, rfl, rfl, hi'⟩
  · exact ⟨rfl, hi'.withStack (·.pop)⟩
  · exact ⟨rfl, hi'.withStack (·.pop)⟩

lemma withModule {r : Ref .module} (hr : r.Live m.census)
    (h : Mirrors f base files x y { m with module := some r }
      { n with module := some (f.on r) }) :
    Mirrors f base files (Eval.withModule r x) (Eval.withModule (f.on r) y) m n := by
  intro hm hi
  have hmodule : ∀ q ∈ some r, q.Live m.census := by
    rintro q ⟨⟩
    exact hr
  have h := h ⟨hm.store, hm.cache, hmodule⟩ { hi with module := rfl }
  unfold Eval.withModule
  dsimp only
  generalize x _ = r, y _ = r' at h ⊢
  rcases h.cases with ⟨a, m₁, n₁, rfl, rfl, hi'⟩ | ⟨e, m₁, n₁, rfl, rfl, hi'⟩
  · exact ⟨rfl, { hi' with module := hi.module }⟩
  · exact ⟨rfl, { hi' with module := hi.module }⟩

/-- Something is made of what an evaluation comes to. -/
lemma outcome {u : EStateM.Result Exit Machine α → EStateM.Result Exit Machine β}
    (h : Mirrors f base files x y m n)
    (hok : ∀ a m' n', Machine.Image f base files m' n' →
      f.Matches (Machine.Image f base files) (u (.ok a m')) (u (.ok (f.on a) n')))
    (herror : ∀ e m' n', Machine.Image f base files m' n' →
      f.Matches (Machine.Image f base files) (u (.error e m')) (u (.error (f.on e) n'))) :
    Mirrors f base files (fun m => u (x m)) (fun n => u (y n)) m n := by
  intro hm hi
  dsimp only
  rcases (h hm hi).cases with ⟨a, m', n', hx, hy, hi'⟩ | ⟨e, m', n', hx, hy, hi'⟩
  · rw [hx, hy]
    exact hok a m' n' hi'
  · rw [hx, hy]
    exact herror e m' n' hi'

lemma recording (h : Mirrors f base files x y m n) :
    Mirrors f base files (Eval.recording x) (Eval.recording y) m n := by
  refine h.outcome (u := fun r => Eval.recording (fun _ => r) m) (fun a m' n' hi => ⟨rfl, hi⟩)
    fun e m' n' hi => ?_
  cases e with
  | fault e => exact ⟨rfl, hi.recordFault e⟩
  | _ => exact ⟨rfl, hi⟩

lemma takingReturn {x y : Eval Value} (h : Mirrors f base files x y m n) :
    Mirrors f base files (Eval.takingReturn x) (Eval.takingReturn y) m n := by
  refine h.outcome (u := fun r => Eval.takingReturn (fun _ => r) m) (fun a m' n' hi => ⟨rfl, hi⟩)
    fun e m' n' hi => ?_
  cases e with
  | returning v => exact ⟨rfl, hi⟩
  | _ => exact ⟨rfl, hi⟩

lemma outsideLoops (h : Mirrors f base files x y m n) :
    Mirrors f base files (Eval.outsideLoops x) (Eval.outsideLoops y) m n := by
  refine h.outcome (u := fun r => Eval.outsideLoops (fun _ => r) m) (fun a m' n' hi => ⟨rfl, hi⟩)
    fun e m' n' hi => ?_
  cases e with
  | breaking => exact ⟨rfl, hi.recordFault _⟩
  | continuing => exact ⟨rfl, hi.recordFault _⟩
  | _ => exact ⟨rfl, hi⟩

lemma boundingDepth (h : Mirrors f base files x y m n) :
    Mirrors f base files (Eval.boundingDepth x) (Eval.boundingDepth y) m n := by
  refine h.outcome (u := fun r => Eval.boundingDepth (fun _ => r) m) (fun a m' n' hi => ⟨rfl, hi⟩)
    fun e m' n' hi => ?_
  cases e with
  | tooDeep => exact ⟨rfl, hi⟩
  | _ => exact ⟨rfl, hi⟩

lemma loopRound (h : Mirrors f base files x y m n) :
    Mirrors f base files (Eval.loopRound x) (Eval.loopRound y) m n := by
  refine h.outcome (u := fun r => Eval.loopRound (fun _ => r) m) (fun a m' n' hi => ⟨rfl, hi⟩)
    fun e m' n' hi => ?_
  cases e with
  | breaking => exact ⟨rfl, hi⟩
  | continuing => exact ⟨rfl, hi⟩
  | _ => exact ⟨rfl, hi⟩

/-! ### Loops -/

/-- A loop whose rounds may start in any state that comes later. -/
lemma repeating {round round' : Eval Bool} (rounds : Nat)
    (hx : ∀ m' n', m.census ≤ m'.census → Mirrors f base files round round' m' n')
    (hd : ∀ m', m.census ≤ m'.census → round.Behaves m' fun _ _ => True) :
    Mirrors f base files (Eval.repeating round rounds) (Eval.repeating round' rounds) m n := by
  induction rounds generalizing m n with
  | zero => exact .throw rfl
  | succ rounds ih =>
    refine .bind (hx m n le_rfl) (hd m le_rfl) fun goesOn m₁ n₁ hn₁ _ => ?_
    cases goesOn with
    | true =>
      exact ih (fun m' n' hn => hx m' n' (hn₁.trans hn)) fun m' hn => hd m' (hn₁.trans hn)
    | false => exact .pure rfl

/-- A walk whose body may start in any state that comes later, with anything live. -/
lemma walking {body body' : Value × Value → Eval Bool} (rounds : Nat) {walk : Iteration}
    (hw : walk.Live m.census)
    (hx : ∀ step m' n', m.census ≤ m'.census → step.1.Live m'.census ∧ step.2.Live m'.census →
      Mirrors f base files (body step) (body' (f.on step)) m' n')
    (hd : ∀ step m', m.census ≤ m'.census → step.1.Live m'.census ∧ step.2.Live m'.census →
      (body step).Behaves m' fun _ _ => True) :
    Mirrors f base files (Eval.walking body rounds walk) (Eval.walking body' rounds (f.on walk))
      m n := by
  induction rounds generalizing m n walk with
  | zero => exact .throw rfl
  | succ rounds ih =>
    refine .of_image fun hm hi => .store_bind ?_
    rw [hi.store.next?]
    cases hnext : walk.next? m.world.store with
    | none => exact .pure rfl
    | some found =>
      obtain ⟨step, rest⟩ := found
      obtain ⟨hstep, hrest⟩ := hm.store.next?_live hw hnext
      refine .bind (hx step m n le_rfl hstep) (hd step m le_rfl hstep) fun goesOn m₁ n₁ hn₁ _ => ?_
      cases goesOn with
      | true =>
        exact ih (hrest.mono hn₁) (fun step m' n' hn => hx step m' n' (hn₁.trans hn))
          fun step m' hn => hd step m' (hn₁.trans hn)
      | false => exact .pure rfl

end Eval.Mirrors

end Wei
