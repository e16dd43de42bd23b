import Wei.Proofs.Frames
import Wei.Proofs.Loading

/-!
What imports add to the cache, and where the parts of a construct are evaluated.

Whatever is evaluated, modules come into the cache at its end only, one for each text that was
parsed and is a program. And the parts of a construct are evaluated inside of it: in its frames,
with perhaps others on top, and with all the modules in the cache that it found there. The second is
shown with the first, as one congruence: two evaluators that agree inside of a construct come to the
same for it.
-/

namespace Wei

/-! ### Maps that grow -/

namespace OrderedMap

variable {κ ν : Type} {m m' m'' : OrderedMap κ ν}

/-- What is in the one map is in the other, in its place, and all else comes after it. -/
def Grows (m m' : OrderedMap κ ν) : Prop := m.entries <+: m'.entries

@[refl] lemma Grows.refl (m : OrderedMap κ ν) : m.Grows m := List.prefix_rfl

lemma Grows.trans (h : m.Grows m') (h' : m'.Grows m'') : m.Grows m'' := List.IsPrefix.trans h h'

variable [DecidableEq κ] {k : κ}

lemma grows_insert (h : m.contains k = false) (v : ν) : m.Grows (m.insert k v) :=
  ⟨[(k, v)], (entries_insert_of_not_contains h v).symm⟩

lemma Grows.find? {v : ν} (h : m.Grows m') (hk : m.find? k = some v) : m'.find? k = some v :=
  find?_eq_some_iff.mpr (h.subset (find?_eq_some_iff.mp hk))

lemma Grows.contains (h : m.Grows m') (hk : m.contains k = true) : m'.contains k = true := by
  rw [contains_iff] at hk ⊢
  exact (List.IsPrefix.map (·.1) h).subset hk

lemma Grows.not_contains (h : m.Grows m') (hk : m'.contains k = false) : m.contains k = false := by
  by_contra hold
  rw [h.contains (by simpa using hold)] at hk
  cases hk

end OrderedMap

/-! ### What comes into the cache -/

/-- The paths of those texts that are programs. -/
def Host.programs (host : Host) (texts : List (String × String)) : List String :=
  texts.filterMap fun t =>
    match host.parse t.2 t.1 with
    | .program _ => some t.1
    | _ => none

lemma Host.programs_append (host : Host) (texts texts' : List (String × String)) :
    host.programs (texts ++ texts') = host.programs texts ++ host.programs texts' :=
  List.filterMap_append ..

/-- Between the two states texts have been parsed, and modules have come into the cache, at its end:
one for each text that is a program, in the order of the texts. -/
def Machine.Loads (host : Host) (m m' : Machine) : Prop :=
  ∃ texts added, m'.parsed = m.parsed ++ texts ∧
    m'.world.cache.entries = m.world.cache.entries ++ added ∧
    added.map (·.1) = host.programs texts

namespace Machine

variable {host : Host} {m m' m'' : Machine}

lemma Loads.of_eq (hp : m'.parsed = m.parsed) (hc : m'.world.cache = m.world.cache) :
    m.Loads host m' :=
  ⟨[], [], by rw [hp, List.append_nil], by rw [hc, List.append_nil], rfl⟩

lemma Loads.trans (h : m.Loads host m') (h' : m'.Loads host m'') : m.Loads host m'' := by
  obtain ⟨texts, added, hp, hc, hadded⟩ := h
  obtain ⟨texts', added', hp', hc', hadded'⟩ := h'
  refine ⟨texts ++ texts', added ++ added', ?_, ?_, ?_⟩
  · rw [hp', hp, List.append_assoc]
  · rw [hc', hc, List.append_assoc]
  · rw [List.map_append, hadded, hadded', host.programs_append]

instance : Std.Refl (Loads host) := ⟨fun _ => .of_eq rfl rfl⟩

instance : IsTrans Machine (Loads host) := ⟨fun _ _ _ h h' => h.trans h'⟩

lemma Loads.grows (h : m.Loads host m') : m.world.cache.Grows m'.world.cache := by
  obtain ⟨_, added, _, hc, _⟩ := h
  exact ⟨added, hc.symm⟩

/-- No text that is a program has been parsed if none came of the file. -/
lemma loads_reading_of_error {path : String} {e : Exit} (h : (host.read path).2 = .error e) :
    m.Loads host (m.reading host path) := by
  refine ⟨(host.read path).1, [], rfl, (List.append_nil _).symm, ?_⟩
  unfold Host.read at h ⊢
  split at h
  · rfl
  · rfl
  · next text _ =>
    cases hparse : host.parse text path with
    | program p =>
      rw [hparse] at h
      cases h
    | _ => simp [Host.programs, hparse]

/-- The one program that came of a file has its module in the cache. -/
lemma loads_addModule {path : String} {p : Program} (h : (host.read path).2 = .ok p)
    (hnew : m.world.cache.contains path = false) :
    m.Loads host ((m.reading host path).addModule path) := by
  obtain ⟨text, htexts, hparse⟩ := Host.exists_of_read_eq_ok h
  refine ⟨(host.read path).1, [(path, ⟨m.world.store.modules.size⟩)], rfl, ?_, ?_⟩
  · exact OrderedMap.entries_insert_of_not_contains hnew _
  · simp [htexts, Host.programs, hparse]

/-! ### Inside of a construct -/

/-- What the frames on the stack are about, innermost first. -/
def origins (m : Machine) : List (String × String) := m.stack.frames.map Frame.origin

lemma SamePlace.origins_eq (h : m.SamePlace m') : m'.origins = m.origins := h.stack.origins

/-- A state inside of a construct that started in `base`: its frames are on the stack, below all
others, and the modules that it found in the cache are there. -/
structure Inside (base m : Machine) : Prop where
  frames : base.origins <:+ m.origins
  cache : base.world.cache.Grows m.world.cache

namespace Inside

variable {base : Machine}

@[refl] lemma refl (m : Machine) : m.Inside m := ⟨List.suffix_rfl, .refl _⟩

lemma trans (h : m.Inside m') (h' : m'.Inside m'') : m.Inside m'' :=
  ⟨h.frames.trans h'.frames, h.cache.trans h'.cache⟩

lemma advance (h : base.Inside m) (hplace : m.SamePlace m') (hloads : m.Loads host m') :
    base.Inside m' := by
  refine ⟨?_, h.cache.trans hloads.grows⟩
  rw [hplace.origins_eq]
  exact h.frames

lemma push (h : base.Inside m) (path function : String) :
    base.Inside { m with stack := m.stack.push path function } :=
  ⟨h.frames.trans (List.suffix_cons ..), h.cache⟩

lemma withModule (h : base.Inside m) (module : Option (Ref .module)) :
    base.Inside { m with module := module } :=
  ⟨h.frames, h.cache⟩

end Inside

end Machine

/-- Both evaluations come to the same inside of a construct that started in `base`. The first leaves
frames and module as they are, and only loading adds to the cache. -/
structure Eval.AgreesInside (host : Host) (base : Machine) {α : Type} (x y : Eval α) : Prop where
  keeps : x.KeepsPlace
  loads : x.Within (Machine.Loads host)
  agrees {m : Machine} : base.Inside m → x m = y m

namespace Eval.AgreesInside

open EStateM

variable {host : Host} {base : Machine} {α β : Type} {x y : Eval α}

/-- An evaluation that does not hang on its parts. -/
lemma of_within (hk : x.KeepsPlace) (hl : x.Within (Machine.Loads host)) :
    AgreesInside host base x x :=
  ⟨hk, hl, fun _ => rfl⟩

lemma own (hx : x.Own) : AgreesInside host base x x := by
  refine .of_within (.own hx) fun m => ?_
  cases hx with
  | @onStore _ z _ =>
    rw [after_onStore]
    exact .of_eq rfl rfl
  | builtin b args =>
    rw [after_onWorld]
    refine .of_eq rfl ?_
    show ((b.call args).after m.world).cache = m.world.cache
    unfold EStateM.after Builtin.call
    cases b.outcome m.world.store args <;> rfl
  | askStore z =>
    rw [after_askStore]
    exact .of_eq rfl rfl
  | atLine line =>
    show m.Loads host (if line = 0 then m else { m with stack := m.stack.setLine line })
    split <;> exact .of_eq rfl rfl
  | _ => exact .of_eq rfl rfl

lemma bind {f g : α → Eval β} (hx : AgreesInside host base x y)
    (hf : ∀ a, AgreesInside host base (f a) (g a)) :
    AgreesInside host base (x >>= f) (y >>= g) := by
  refine ⟨.bind hx.keeps fun a => (hf a).keeps, .bind hx.loads fun a => (hf a).loads, ?_⟩
  intro m hm
  cases h : x m with
  | ok a m₁ =>
    rw [bind_of_ok h, bind_of_ok ((hx.agrees hm).symm.trans h)]
    have hplace := hx.keeps m
    have hloads := hx.loads m
    rw [after_of_ok h] at hplace hloads
    exact (hf a).agrees (hm.advance hplace hloads)
  | error e m₁ => rw [bind_of_error h, bind_of_error ((hx.agrees hm).symm.trans h)]

lemma recording (hx : AgreesInside host base x y) :
    AgreesInside host base (Eval.recording x) (Eval.recording y) := by
  refine ⟨hx.keeps.recording, fun m => ?_, fun hm => ?_⟩
  · obtain ⟨report, h⟩ := after_recording x m
    rw [h]
    exact hx.loads m
  · unfold Eval.recording
    rw [hx.agrees hm]

lemma outsideLoops (hx : AgreesInside host base x y) :
    AgreesInside host base (Eval.outsideLoops x) (Eval.outsideLoops y) := by
  refine ⟨hx.keeps.outsideLoops, fun m => ?_, fun hm => ?_⟩
  · obtain ⟨report, h⟩ := after_outsideLoops x m
    rw [h]
    exact hx.loads m
  · unfold Eval.outsideLoops
    rw [hx.agrees hm]

lemma withFrame (hx : AgreesInside host base x y) (path function : String) :
    AgreesInside host base (Eval.withFrame path function x) (Eval.withFrame path function y) := by
  refine ⟨hx.keeps.withFrame path function, fun m => ?_, fun hm => ?_⟩
  · rw [after_withFrame]
    exact hx.loads { m with stack := m.stack.push path function }
  · unfold Eval.withFrame
    rw [hx.agrees (hm.push path function)]

lemma withModule (hx : AgreesInside host base x y) (r : Ref .module) :
    AgreesInside host base (Eval.withModule r x) (Eval.withModule r y) := by
  refine ⟨hx.keeps.withModule r, fun m => ?_, fun hm => ?_⟩
  · rw [after_withModule]
    exact hx.loads { m with module := some r }
  · unfold Eval.withModule
    rw [hx.agrees (hm.withModule (some r))]

lemma takingReturn {x y : Eval Value} (hx : AgreesInside host base x y) :
    AgreesInside host base (Eval.takingReturn x) (Eval.takingReturn y) := by
  refine ⟨hx.keeps.takingReturn, fun m => ?_, fun hm => ?_⟩
  · rw [after_takingReturn]
    exact hx.loads m
  · unfold Eval.takingReturn
    rw [hx.agrees hm]

lemma loopRound (hx : AgreesInside host base x y) :
    AgreesInside host base (Eval.loopRound x) (Eval.loopRound y) := by
  refine ⟨hx.keeps.loopRound, fun m => ?_, fun hm => ?_⟩
  · rw [after_loopRound]
    exact hx.loads m
  · unfold Eval.loopRound
    rw [hx.agrees hm]

lemma boundingDepth (hx : AgreesInside host base x y) :
    AgreesInside host base (Eval.boundingDepth x) (Eval.boundingDepth y) := by
  refine ⟨hx.keeps.boundingDepth, fun m => ?_, fun hm => ?_⟩
  · rw [after_boundingDepth]
    exact hx.loads m
  · unfold Eval.boundingDepth
    rw [hx.agrees hm]

lemma atBottom (hx : AgreesInside host base x y) :
    AgreesInside host base (Eval.atBottom x) (Eval.atBottom y) := by
  refine ⟨hx.keeps.atBottom, fun m => ?_, fun {m} hm => ?_⟩
  · rw [after_atBottom]
    split
    · exact (hx.withFrame m.modulePath "<module>").loads m
    · exact hx.loads m
  · unfold Eval.atBottom
    split
    · exact (hx.withFrame m.modulePath "<module>").agrees hm
    · exact hx.agrees hm

end Eval.AgreesInside

/-- Coming to the same inside of a construct is respected by every construct. -/
def LocalCongruence.inside (host : Host) (base : Machine) : LocalCongruence where
  Rel _ _ x y := x.AgreesInside host base y
  own := .own
  exit {_ _ e} _ := .of_within (.throw e) (.throw e)
  bind := .bind
  widen := id
  loosen := id
  recording := .recording
  withFrame path function hx := hx.withFrame path function
  withModule r hx := hx.withModule r
  takingReturn := .takingReturn
  outsideLoops := .outsideLoops
  loopRound := .loopRound

/-! ### Imports -/

/-- What an import of a file that is a program comes to. -/
lemma Evaluator.load_of_file {host : Host} {name path : String} {p : Program} {m : Machine}
    (parts : Evaluator) (hfind : host.find m.world.cache name = .file path)
    (hread : (host.read path).2 = .ok p) :
    load host parts name m =
      parts.moduleText ⟨m.world.store.modules.size⟩ path ⟨m.world.store.scopes.size⟩ p
        ((m.reading host path).addModule path) := by
  obtain ⟨_, _, _, _, hnew⟩ := Host.exists_of_find_eq_file hfind
  have hrun : load host parts name m = parts.runModule path p (m.reading host path) := by
    rw [load_eq, hfind]
    dsimp only
    rw [hread]
  exact hrun.trans (runModule_of_new (m := m.reading host path) hnew p)

/-- **An import evaluates a text only if no module has its path**, and does so in the frame of the
text and with the module in the cache. Otherwise it does not evaluate anything, and nothing comes
into the cache. -/
lemma Evaluator.load_cases (host : Host) (name : String) (m : Machine) :
    ((∃ m', m.SamePlace m' ∧ m.Loads host m' ∧ m'.world.cache = m.world.cache ∧
        ∀ parts, (load host parts name).after m = m') ∧
      ∀ parts other, load host parts name m = load host other name m) ∨
    ∃ path p, host.find m.world.cache name = .file path ∧ (host.read path).2 = .ok p ∧
      m.world.cache.contains path = false ∧
      ∀ parts, load host parts name m =
        parts.moduleText ⟨m.world.store.modules.size⟩ path ⟨m.world.store.scopes.size⟩ p
          ((m.reading host path).addModule path) := by
  cases hfind : host.find m.world.cache name with
  | nowhere e =>
    have h (parts : Evaluator) : load host parts name m = .error e m := by rw [load_eq, hfind]
    refine .inl ⟨⟨m, .of_eq rfl rfl, .of_eq rfl rfl, rfl, fun parts => ?_⟩, fun parts other => ?_⟩
    · exact EStateM.after_of_error (h parts)
    · rw [h, h]
  | cached r =>
    have h (parts : Evaluator) : load host parts name m = .ok (.module r) m := by
      rw [load_eq, hfind]
    refine .inl ⟨⟨m, .of_eq rfl rfl, .of_eq rfl rfl, rfl, fun parts => ?_⟩, fun parts other => ?_⟩
    · exact EStateM.after_of_ok (h parts)
    · rw [h, h]
  | file path =>
    cases hread : (host.read path).2 with
    | error e =>
      have h (parts : Evaluator) : load host parts name m = .error e (m.reading host path) := by
        rw [load_eq, hfind]
        dsimp only
        rw [hread]
      refine .inl ⟨⟨m.reading host path, .of_eq rfl rfl, Machine.loads_reading_of_error hread,
        rfl, fun parts => ?_⟩, fun parts other => ?_⟩
      · exact EStateM.after_of_error (h parts)
      · rw [h, h]
    | ok p =>
      obtain ⟨_, _, _, _, hnew⟩ := Host.exists_of_find_eq_file hfind
      exact .inr ⟨path, p, rfl, hread, hnew, fun parts => load_of_file parts hfind hread⟩

/-- Imports respect what the texts of modules respect. -/
theorem Evaluator.load_agreesInside {host : Host} {base : Machine} {p q : Evaluator}
    (h : (LocalCongruence.inside host base).Relates p q) (name : String) :
    (load host p name).AgreesInside host base (load host q name) := by
  have text (r : Ref .module) (path : String) (scope : Ref .scope) (t : Program) :
      (p.moduleText r path scope t).AgreesInside host base (q.moduleText r path scope t) :=
    .bind (((h.program scope t).withFrame path "<module>").withModule r) fun _ => .own (.pure _)
  constructor
  case keeps =>
    intro m
    rcases load_cases host name m with ⟨⟨m', hplace, _, _, hafter⟩, _⟩ | ⟨path, t, _, _, _, hload⟩
    · rw [hafter]
      exact hplace
    · rw [EStateM.after, hload p]
      have hadded : m.SamePlace ((m.reading host path).addModule path) := .of_eq rfl rfl
      exact Trans.trans hadded ((text ..).keeps _)
  case loads =>
    intro m
    rcases load_cases host name m with ⟨⟨m', _, hloads, _, hafter⟩, _⟩ |
      ⟨path, t, _, hread, hnew, hload⟩
    · rw [hafter]
      exact hloads
    · rw [EStateM.after, hload p]
      exact (Machine.loads_addModule hread hnew).trans ((text ..).loads _)
  case agrees =>
    intro m hm
    rcases load_cases host name m with ⟨_, hsame⟩ | ⟨path, t, _, hread, hnew, hload⟩
    · exact hsame p q
    · rw [hload p, hload q]
      refine (text ..).agrees (hm.advance ?_ (Machine.loads_addModule hread hnew))
      exact .of_eq rfl rfl

/-- An evaluator of any depth agrees with itself, so all it does keeps frames and module and only
loads. -/
theorem Evaluator.ofDepth_agreesInside (host : Host) (base : Machine) (rounds depth : Nat) :
    (LocalCongruence.inside host base).Relates (.ofDepth (load host) rounds depth)
      (.ofDepth (load host) rounds depth) :=
  (LocalCongruence.inside host base).relates_ofDepth (fun _ h => load_agreesInside h) rounds depth

/-- Whatever the host has evaluated, only loading adds to the cache. -/
lemma Eval.evaluate_loads (host : Host) (limits : Limits) (n : Node) (scope : Ref .scope) :
    (Eval.evaluate host limits n scope).Within (Machine.Loads host) := by
  have hself := Evaluator.ofDepth_agreesInside host default limits.rounds limits.depth
  have hreset : resetReport.Within (Machine.Loads host) := fun _ => .of_eq rfl rfl
  exact hreset.bind fun _ =>
    (hself.node scope n).outsideLoops.takingReturn.boundingDepth.recording.atBottom.loads

end Wei
