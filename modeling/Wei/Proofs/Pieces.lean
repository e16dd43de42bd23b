import Wei.Proofs.After
import Wei.Proofs.Congruence

/-!
A program may be evaluated in pieces. Evaluation never looks at what serves the host: not at the
frames and their lines, not at the report, and not at what has been printed or told to the console
so far. So a host that has statements evaluated one after the other, with a new report and a new
frame each time, comes to the same as if it had handed them in as one program.
-/

namespace Wei

/-! ### Telling the host more or less of it -/

/-- What a session has printed, told to the console and had parsed. -/
structure Told where
  out : String
  err : String
  parsed : List (String × String)

/-- The two states are the same for scripts, but in the first one more has been told before. The
frames and the report may be any. -/
structure Told.Before (told : Told) (m m' : Machine) : Prop where
  store : m.world.store = m'.world.store
  cache : m.world.cache = m'.world.cache
  out : m.world.out = told.out ++ m'.world.out
  module : m.module = m'.module
  err : m.err = told.err ++ m'.err
  parsed : m.parsed = told.parsed ++ m'.parsed
  sources : m.sources = m'.sources
  verbose : m.report.verbose = m'.report.verbose

/-- Both evaluations came to the same, in states that differ in what has been told before. -/
inductive Told.Agree (told : Told) {α : Type} :
    EStateM.Result Exit Machine α → EStateM.Result Exit Machine α → Prop
  | ok (a : α) {m m' : Machine} : told.Before m m' → Agree told (.ok a m) (.ok a m')
  | error (e : Exit) {m m' : Machine} : told.Before m m' → Agree told (.error e m) (.error e m')

/-- What has been told before, the frames and the report make no difference to the evaluations. -/
def Eval.Alike {α : Type} (x y : Eval α) : Prop :=
  ∀ (told : Told) (m m' : Machine), told.Before m m' → told.Agree (x m) (y m')

namespace Told

variable {told : Told} {m m' : Machine} {α : Type}

lemma Before.bare (h : told.Before m m') : m.bare = m'.bare := by
  unfold Machine.bare
  rw [h.store, h.cache, h.module]

lemma Before.withStore (h : told.Before m m') (s : Store) :
    told.Before { m with world := { m.world with store := s } }
      { m' with world := { m'.world with store := s } } :=
  { h with store := rfl }

lemma Before.withStack (h : told.Before m m') (stack stack' : CallStack) :
    told.Before { m with stack := stack } { m' with stack := stack' } :=
  { h with }

lemma Before.withModule (h : told.Before m m') (r : Option (Ref .module)) :
    told.Before { m with module := r } { m' with module := r } :=
  { h with module := rfl }

lemma Before.recordFault (h : told.Before m m') (f : Fault) :
    told.Before (m.recordFault f) (m'.recordFault f) := by
  refine { h with verbose := ?_ }
  unfold Machine.recordFault
  rw [Report.verbose_record, Report.verbose_record, h.verbose]

lemma Agree.recording {x y : Eval α} (h : told.Agree (x m) (y m')) :
    told.Agree (Eval.recording x m) (Eval.recording y m') := by
  unfold Eval.recording
  generalize x m = r, y m' = r' at h ⊢
  cases h with
  | ok a h => exact .ok a h
  | error e h =>
    cases e with
    | fault f => exact .error _ (h.recordFault f)
    | _ => exact .error _ h

lemma Agree.takingReturn {x y : Eval Value} (h : told.Agree (x m) (y m')) :
    told.Agree (Eval.takingReturn x m) (Eval.takingReturn y m') := by
  unfold Eval.takingReturn
  generalize x m = r, y m' = r' at h ⊢
  cases h with
  | ok a h => exact .ok a h
  | error e h =>
    cases e with
    | returning v => exact .ok v h
    | _ => exact .error _ h

lemma Agree.outsideLoops {x y : Eval α} (h : told.Agree (x m) (y m')) :
    told.Agree (Eval.outsideLoops x m) (Eval.outsideLoops y m') := by
  unfold Eval.outsideLoops
  generalize x m = r, y m' = r' at h ⊢
  cases h with
  | ok a h => exact .ok a h
  | error e h =>
    cases e with
    | breaking => exact .error _ (h.recordFault _)
    | continuing => exact .error _ (h.recordFault _)
    | _ => exact .error _ h

lemma Agree.loopRound {x y : Eval α} (h : told.Agree (x m) (y m')) :
    told.Agree (Eval.loopRound x m) (Eval.loopRound y m') := by
  unfold Eval.loopRound
  generalize x m = r, y m' = r' at h ⊢
  cases h with
  | ok a h => exact .ok true h
  | error e h =>
    cases e with
    | breaking => exact .ok false h
    | continuing => exact .ok true h
    | _ => exact .error _ h

lemma Agree.boundingDepth {x y : Eval α} (h : told.Agree (x m) (y m')) :
    told.Agree (Eval.boundingDepth x m) (Eval.boundingDepth y m') := by
  unfold Eval.boundingDepth
  generalize x m = r, y m' = r' at h ⊢
  cases h with
  | ok a h => exact .ok a h
  | error e h =>
    cases e with
    | tooDeep => exact .error _ h
    | _ => exact .error _ h

end Told

/-! ### Evaluation does not look back -/

namespace Eval.Alike

variable {α β : Type} {x y : Eval α}

lemma own (hx : x.Own) : x.Alike x := by
  intro told m m' h
  cases hx with
  | pure a => exact .ok a h
  | look =>
    show told.Agree (.ok m.bare m) (.ok m'.bare m')
    rw [h.bare]
    exact .ok _ h
  | store =>
    show told.Agree (.ok m.world.store m) (.ok m'.world.store m')
    rw [h.store]
    exact .ok _ h
  | @onStore _ z _ =>
    rw [onStore_eq, onStore_eq, h.store]
    cases z m'.world.store with
    | ok a s => exact .ok a (h.withStore s)
    | error f s => exact .error _ (h.withStore s)
  | builtin b args =>
    rw [onWorld_eq, onWorld_eq]
    unfold Builtin.call
    rw [h.store]
    dsimp only
    cases b.outcome m'.world.store args with
    | ok v =>
      refine .ok v { h with store := rfl, out := ?_ }
      rw [h.out, String.append_assoc]
    | error e =>
      refine .error e { h with store := rfl, out := ?_ }
      rw [h.out, String.append_assoc]
  | askStore z =>
    unfold askStore
    rw [h.store]
    cases z m'.world.store with
    | ok a => exact .ok a h
    | error f => exact .error _ h
  | atLine line =>
    unfold atLine
    split
    · exact .ok () h
    · exact .ok () (h.withStack _ _)

lemma loading (hx : x.Loading) : x.Alike x := by
  intro told m m' h
  cases hx with
  | info words =>
    refine .ok () { h with err := ?_ }
    show m.err ++ m.report.info words = told.err ++ (m'.err ++ m'.report.info words)
    rw [h.err, String.append_assoc, Report.info, Report.info, h.verbose]
  | parse host text path =>
    exact .ok _ { h with parsed := by rw [h.parsed, List.append_assoc] }
  | setCache cache => exact .ok _ { h with cache := rfl }

lemma bind {f g : α → Eval β} (hx : x.Alike y) (hf : ∀ a, (f a).Alike (g a)) :
    (x >>= f).Alike (y >>= g) := by
  intro told m m' h
  have hxy := hx told m m' h
  show told.Agree (EStateM.bind x f m) (EStateM.bind y g m')
  unfold EStateM.bind
  generalize x m = r, y m' = r' at hxy ⊢
  cases hxy with
  | ok a h => exact hf a told _ _ h
  | error e h => exact .error e h

lemma withFrame (hx : x.Alike y) (path path' function function' : String) :
    (Eval.withFrame path function x).Alike (Eval.withFrame path' function' y) := by
  intro told m m' h
  have hxy := hx told _ _ (h.withStack (m.stack.push path function) (m'.stack.push path' function'))
  unfold Eval.withFrame
  generalize x _ = r, y _ = r' at hxy ⊢
  cases hxy with
  | ok a h => exact .ok a (h.withStack _ _)
  | error e h => exact .error e (h.withStack _ _)

lemma withModule (hx : x.Alike y) (r : Ref .module) :
    (Eval.withModule r x).Alike (Eval.withModule r y) := by
  intro told m m' h
  have hxy := hx told _ _ (h.withModule (some r))
  unfold Eval.withModule
  dsimp only
  rw [h.module]
  generalize x _ = r, y _ = r' at hxy ⊢
  cases hxy with
  | ok a h => exact .ok a (h.withModule _)
  | error e h => exact .error e (h.withModule _)

end Eval.Alike

/-- **Evaluation does not look at what serves the host**, as a congruence. -/
def Congruence.alike : Congruence where
  Rel _ _ x y := x.Alike y
  own := .own
  loading := .loading
  exit {_ _ e} _ := fun _ _ _ h => .error e h
  bind := .bind
  widen := id
  loosen := id
  recording hx := fun told m m' h => (hx told m m' h).recording
  withFrame path function hx := hx.withFrame path path function function
  withModule r hx := hx.withModule r
  takingReturn hx := fun told m m' h => (hx told m m' h).takingReturn
  outsideLoops hx := fun told m m' h => (hx told m m' h).outsideLoops
  loopRound hx := fun told m m' h => (hx told m m' h).loopRound

/-! ### One after the other -/

namespace Told

/-- Nothing has been told. -/
def nothing : Told := ⟨"", "", []⟩

/-- The one has been told, and after it the other. -/
def append (told told' : Told) : Told :=
  ⟨told.out ++ told'.out, told.err ++ told'.err, told.parsed ++ told'.parsed⟩

lemma nothing_append (told : Told) : nothing.append told = told := by
  simp [append, nothing]

lemma append_nothing (told : Told) : told.append nothing = told := by
  simp [append, nothing]

variable {told told' : Told} {m m' m'' : Machine} {α : Type}
  {r r' r'' : EStateM.Result Exit Machine α}

lemma Before.refl (m : Machine) : nothing.Before m m :=
  ⟨rfl, rfl, String.empty_append.symm, rfl, String.empty_append.symm, rfl, rfl, rfl⟩

lemma Before.symm (h : nothing.Before m m') : nothing.Before m' m where
  store := h.store.symm
  cache := h.cache.symm
  out := by rw [h.out, nothing, String.empty_append, String.empty_append]
  module := h.module.symm
  err := by rw [h.err, nothing, String.empty_append, String.empty_append]
  parsed := h.parsed.symm
  sources := h.sources.symm
  verbose := h.verbose.symm

lemma Before.trans (h : told.Before m m') (h' : told'.Before m' m'') :
    (told.append told').Before m m'' where
  store := h.store.trans h'.store
  cache := h.cache.trans h'.cache
  out := by rw [h.out, h'.out, append, String.append_assoc]
  module := h.module.trans h'.module
  err := by rw [h.err, h'.err, append, String.append_assoc]
  parsed := by rw [h.parsed, h'.parsed, append, List.append_assoc]
  sources := h.sources.trans h'.sources
  verbose := h.verbose.trans h'.verbose

lemma Agree.symm (h : nothing.Agree r r') : nothing.Agree r' r := by
  cases h with
  | ok a h => exact .ok a h.symm
  | error e h => exact .error e h.symm

lemma Agree.trans (h : told.Agree r r') (h' : told'.Agree r' r'') :
    (told.append told').Agree r r'' := by
  cases h with
  | ok a h =>
    cases h' with
    | ok _ h' => exact .ok a (h.trans h')
  | error e h =>
    cases h' with
    | error _ h' => exact .error e (h.trans h')

end Told

/-- Statements one after the other are executed in two pieces. -/
lemma Evaluator.sequence_append (parts : Evaluator) (scope : Ref .scope) (last : Value)
    (a b : List Stmt) : parts.sequence scope last (a ++ b) =
      parts.sequence scope last a >>= fun v => parts.sequence scope v b := by
  induction a generalizing last with
  | nil => rfl
  | cons s rest ih =>
    show (parts.execute scope s >>= fun v => parts.sequence scope v (rest ++ b)) =
      (parts.execute scope s >>= fun v => parts.sequence scope v rest) >>= _
    simp only [ih, bind_assoc]

namespace Eval

/-- What the host gets of statements that have been executed: a value that is returned is an answer,
and all other exits are faults, which are kept. -/
def answering (x : Eval Value) : Eval Value :=
  recording (boundingDepth (takingReturn (outsideLoops (takingReturn (outsideLoops x)))))

/-- It hangs on nothing but the outcome of the statements. -/
lemma answering_congr {x y : Eval Value} {m m' : Machine} (h : x m = y m') :
    answering x m = answering y m' := by
  have houtcome (x : Eval Value) (m : Machine) : answering x m = answering (fun _ => x m) m' := rfl
  rw [houtcome x m, houtcome y m', h]

/-- What is answered comes from the end of the statements, or has been returned. -/
lemma answering_eq_ok {x : Eval Value} {m m' : Machine} {v : Value}
    (h : answering x m = .ok v m') : x m = .ok v m' ∨ x m = .error (.returning v) m' := by
  have houtcome : answering (fun _ => x m) m = .ok v m' := h
  generalize x m = r at houtcome ⊢
  cases r with
  | ok w m₁ => exact .inl houtcome
  | error e m₁ =>
    cases e with
    | returning w =>
      cases houtcome
      exact .inr rfl
    | _ => cases houtcome

lemma Alike.answering {x y : Eval Value} (h : x.Alike y) : (answering x).Alike (answering y) :=
  fun told m m' hm => (h told m m' hm).outsideLoops.takingReturn.outsideLoops.takingReturn
    |>.boundingDepth.recording

lemma sequence_alike (host : Host) (limits : Limits) (scope : Ref .scope) (last : Value)
    (body : List Stmt) :
    let parts := Evaluator.ofDepth (Evaluator.load host) limits.rounds limits.depth
    (parts.sequence scope last body).Alike (parts.sequence scope last body) :=
  (Congruence.alike.relates_ofDepth host limits.rounds limits.depth).sequence scope last body

/-- **A frame of its own and a new report make no difference** to what a program comes to. -/
lemma evaluate_agrees_answering (host : Host) (limits : Limits) (scope : Ref .scope)
    (body : List Stmt) (m : Machine) :
    Told.nothing.Agree (evaluate host limits (.program ⟨body⟩) scope m)
      (answering ((Evaluator.ofDepth (Evaluator.load host) limits.rounds limits.depth).sequence
        scope .null body) m) := by
  have halike := (sequence_alike host limits scope .null body).answering
  have hstart : Told.nothing.Before { m with report := m.report.reset } m :=
    { Told.Before.refl m with }
  show Told.nothing.Agree (atBottom (answering _) { m with report := m.report.reset }) _
  unfold atBottom
  split
  · unfold withFrame
    have h := halike _ _ _ (hstart.withStack
      (m.stack.push (Machine.modulePath { m with report := m.report.reset }) "<module>") m.stack)
    dsimp only
    generalize answering _ _ = r, answering _ m = r' at h ⊢
    cases h with
    | ok v h => exact .ok v (h.withStack _ _)
    | error e h => exact .error e (h.withStack _ _)
  · exact halike _ _ _ hstart

/-- Once the first statements have come to their end, what comes of all of them is what comes of the
others. -/
lemma evaluate_append_agrees {host : Host} {limits : Limits} {scope : Ref .scope}
    {a b : List Stmt} (hb : b ≠ []) {told : Told} {m m₁ m₂ : Machine} {v : Value}
    (ha : (Evaluator.ofDepth (Evaluator.load host) limits.rounds limits.depth).sequence scope .null
      a m = .ok v m₁)
    (hm : told.Before m₁ m₂) :
    told.Agree (evaluate host limits (.program ⟨a ++ b⟩) scope m)
      (evaluate host limits (.program ⟨b⟩) scope m₂) := by
  have hwhole := evaluate_agrees_answering host limits scope (a ++ b) m
  have hsecond := evaluate_agrees_answering host limits scope b m₂
  have hrest := (sequence_alike host limits scope .null b).answering told m₁ m₂ hm
  generalize Evaluator.ofDepth (Evaluator.load host) limits.rounds limits.depth = parts at *
  -- the answer of the first statements is not asked for
  have hlast : parts.sequence scope v b = parts.sequence scope .null b := by
    cases b with
    | nil => exact absurd rfl hb
    | cons s rest => rfl
  have hsplit : parts.sequence scope .null (a ++ b) m = parts.sequence scope .null b m₁ := by
    rw [Evaluator.sequence_append, EStateM.bind_of_ok ha, hlast]
  rw [answering_congr hsplit] at hwhole
  have h := (hwhole.trans hrest).trans hsecond.symm
  rwa [Told.nothing_append, Told.append_nothing] at h

end Eval

/-! ### Turns of a session -/

namespace Engine

/-- The two engines differ at most in what serves hosts: in the reports and frames of sessions. -/
structure SameButDiagnostics (p q : Engine) : Prop where
  store : p.store = q.store
  caches (j : Nat) : p.caches.get j = q.caches.get j
  sources : p.sources = q.sources
  cache (j : Nat) : (p.sessions.get j).cache = (q.sessions.get j).cache
  module (j : Nat) : (p.sessions.get j).module = (q.sessions.get j).module
  limits (j : Nat) : (p.sessions.get j).limits = (q.sessions.get j).limits
  verbose (j : Nat) : (p.sessions.get j).report.verbose = (q.sessions.get j).report.verbose

variable {p : Engine} {i : Nat} {m m₁ m' : Machine}

/-- The next turn of a session starts where the last one ended, with nothing told yet. -/
lemma machine_absorb (p : Engine) (i : Nat) (m : Machine) :
    (p.absorb i m).machine i =
      { m with world := { m.world with out := "" }, err := "", parsed := [] } := by
  unfold machine absorb
  dsimp only
  rw [Arena.get_set_self, Arena.get_set_self]

/-- What was told in the turn before is what the next one has not got. -/
lemma before_machine_absorb (p : Engine) (i : Nat) (m : Machine) :
    Told.Before ⟨m.world.out, m.err, m.parsed⟩ m ((p.absorb i m).machine i) := by
  rw [machine_absorb]
  exact ⟨rfl, rfl, String.append_empty.symm, rfl, String.append_empty.symm,
    (List.append_nil _).symm, rfl, rfl⟩

/-- After two turns of a session it is as if only the second had been taken over. -/
lemma sameButDiagnostics_absorb {told : Told} (h : told.Before m m') :
    ((p.absorb i m₁).absorb i m').SameButDiagnostics (p.absorb i m) := by
  have hsession : (p.absorb i m₁).sessions.get i =
      { p.sessions.get i with module := m₁.module, stack := m₁.stack, report := m₁.report } :=
    Arena.get_set_self ..
  have hsessions (j : Nat) : ((p.absorb i m₁).absorb i m').sessions.get j =
      if i = j then
        { p.sessions.get i with module := m'.module, stack := m'.stack, report := m'.report }
      else p.sessions.get j := by
    show ((p.sessions.set i _).set i
      { (p.absorb i m₁).sessions.get i with
        module := m'.module, stack := m'.stack, report := m'.report }).get j = _
    rw [Arena.get_set, hsession, Arena.get_set]
    split
    · rfl
    · rfl
  have hsessions' (j : Nat) : (p.absorb i m).sessions.get j =
      if i = j then
        { p.sessions.get i with module := m.module, stack := m.stack, report := m.report }
      else p.sessions.get j := Arena.get_set ..
  refine ⟨h.store.symm, fun j => ?_, h.sources.symm, fun j => ?_, fun j => ?_, fun j => ?_,
    fun j => ?_⟩
  · show ((p.caches.set (p.sessions.get i).cache _).set ((p.absorb i m₁).sessions.get i).cache
      m'.world.cache).get j = (p.caches.set (p.sessions.get i).cache m.world.cache).get j
    rw [hsession, Arena.get_set, Arena.get_set, Arena.get_set, h.cache]
    split
    · rfl
    · rfl
  all_goals
    rw [hsessions, hsessions']
    split
  · rfl
  · rfl
  · exact h.module.symm
  · rfl
  · rfl
  · rfl
  · exact h.verbose.symm
  · rfl

lemma turn_of_ok {α : Type} {x : Eval α} {a : α} (h : x (p.machine i) = .ok a m) :
    p.turn i x = (⟨.ok a, m.world.out, m.err, m.parsed⟩, p.absorb i m) := by
  unfold turn
  rw [h]

lemma exists_of_turn_eq_ok {α : Type} {x : Eval α} {a : α}
    (h : (p.turn i x).1.result = .ok a) : ∃ m, x (p.machine i) = .ok a m := by
  unfold turn at h
  cases hx : x (p.machine i) with
  | ok b m =>
    rw [hx] at h
    cases h
    exact ⟨m, rfl⟩
  | error e m =>
    rw [hx] at h
    cases h

/-- **A program may be evaluated in pieces.** In every state of a session, if a first list of
statements comes to its end, without a fault, a stray exit or a `return` at the top level, then to
have it evaluated and after it a second one, which is not empty, comes to the same as to have both
evaluated as one program. The second turn answers the same value or ends in the same fault, all that
scripts can see and all that the engine remembers is the same, and so is what is printed, told to
the console and parsed. Only reports and frames may differ. -/
theorem program_may_be_evaluated_in_pieces (p : Engine) (i : Nat) (host : Host) (limits : Limits)
    (scope : Ref .scope) (a b : List Stmt) (hb : b ≠ []) (v : Value)
    (hanswer : (p.turn i (Eval.evaluate host limits (.program ⟨a⟩) scope)).1.result = .ok v)
    (hreturn : ∀ w m, (Evaluator.ofDepth (Evaluator.load host) limits.rounds limits.depth).sequence
      scope .null a (p.machine i) ≠ .error (.returning w) m) :
    let first := p.turn i (Eval.evaluate host limits (.program ⟨a⟩) scope)
    let second := first.2.turn i (Eval.evaluate host limits (.program ⟨b⟩) scope)
    let whole := p.turn i (Eval.evaluate host limits (.program ⟨a ++ b⟩) scope)
    second.1.result = whole.1.result ∧ second.2.SameButDiagnostics whole.2 ∧
      first.1.out ++ second.1.out = whole.1.out ∧ first.1.err ++ second.1.err = whole.1.err ∧
      first.1.parsed ++ second.1.parsed = whole.1.parsed := by
  intro first second whole
  obtain ⟨m₁, hm₁⟩ := exists_of_turn_eq_ok hanswer
  -- the statements themselves have come to their end
  obtain ⟨m₂, hm₂, hsame⟩ : ∃ m₂, (Evaluator.ofDepth (Evaluator.load host) limits.rounds
      limits.depth).sequence scope .null a (p.machine i) = .ok v m₂ ∧
      Told.nothing.Before m₂ m₁ := by
    have hfirst := Eval.evaluate_agrees_answering host limits scope a (p.machine i)
    rw [hm₁] at hfirst
    generalize hr : Eval.answering _ _ = r at hfirst
    cases hfirst with
    | @ok _ _ m₂ hsame =>
      rcases Eval.answering_eq_ok hr with h | h
      · exact ⟨m₂, h, hsame.symm⟩
      · exact absurd h (hreturn v m₂)
  have htold : Told.Before ⟨m₁.world.out, m₁.err, m₁.parsed⟩ m₂ ((p.absorb i m₁).machine i) := by
    have h := hsame.trans (before_machine_absorb p i m₁)
    rwa [Told.nothing_append] at h
  have hagree := Eval.evaluate_append_agrees hb hm₂ htold
  have hfirst : first = (⟨.ok v, m₁.world.out, m₁.err, m₁.parsed⟩, p.absorb i m₁) := turn_of_ok hm₁
  clear_value first
  subst hfirst
  unfold whole second turn
  generalize Eval.evaluate host limits (.program ⟨a ++ b⟩) scope (p.machine i) = r,
    Eval.evaluate host limits (.program ⟨b⟩) scope _ = r' at hagree ⊢
  cases hagree with
  | ok w h => exact ⟨rfl, sameButDiagnostics_absorb h, h.out.symm, h.err.symm, h.parsed.symm⟩
  | error e h => exact ⟨rfl, sameButDiagnostics_absorb h, h.out.symm, h.err.symm, h.parsed.symm⟩

/-- A variable is declared and printed in a first turn, and changed and printed in a second one that
then fails. As one program, that prints both lines and ends in the same fault. -/
theorem printing_in_pieces :
    let host : Host := ⟨.empty ⟨[]⟩, fun _ _ => .syntaxError "", Text.line?⟩
    let x : Expr := .name "x"
    let print : Stmt := .mk 2 (.eval (.call (.name "print") [x]))
    let a : List Stmt := [.mk 1 (.declare "x" (some (.literal (.int 1))) false), print]
    let b : List Stmt := [.mk 3 (.assign (.name "x") (.binary .add x x)), print,
      .mk 4 (.eval (.binary .add x (.literal (.str "s"))))]
    let evaluate (body : List Stmt) := Eval.evaluate host ⟨9, 1⟩ (.program ⟨body⟩) ⟨0⟩
    let start := ((Engine.initial.newSession false .standard none).turn 0
      (Eval.openModule host "")).2
    let first := start.turn 0 (evaluate a)
    let second := first.2.turn 0 (evaluate b)
    let whole := start.turn 0 (evaluate (a ++ b))
    whole.1.out = "1\n2\n" ∧ first.1.out ++ second.1.out = whole.1.out ∧
      second.1.result = whole.1.result ∧ second.2.SameButDiagnostics whole.2 := by
  intro host x print a b evaluate start first second whole
  have hout : whole.1.out = "1\n2\n" := by decide +kernel
  obtain ⟨v, m, hm⟩ := EStateM.exists_of_answers
    (show (evaluate a).answers (start.machine 0) = true by decide +kernel)
  have hends : ((Evaluator.ofDepth (Evaluator.load host) 1 9).sequence ⟨0⟩ .null a).answers
      (start.machine 0) = true := by decide +kernel
  have hanswer : first.1.result = .ok v := congrArg (·.1.result) (turn_of_ok hm)
  obtain ⟨hresult, hsame, hprinted, -⟩ := program_may_be_evaluated_in_pieces start 0 host ⟨9, 1⟩ ⟨0⟩
    a b (List.cons_ne_nil _ _) v hanswer fun w m => EStateM.ne_error_of_answers hends _ _
  exact ⟨hout, hprinted, hresult, hsame⟩

end Engine

end Wei
