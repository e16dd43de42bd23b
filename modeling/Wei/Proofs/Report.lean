import Wei.Engine
import Wei.Proofs.Congruence

/-!
The report and the answer agree. While something is evaluated the report stays as it is, until a
fault is on its way up; and from then on it holds that very fault, or nothing yet. So the fault
that the host is answered is the fault that the report holds, however many calls, loops, class
bodies and modules lie between.
-/

namespace Wei

/-! ### What an evaluation does to the report -/

/-- What may have become of the report `r` by the time an evaluation ends: it is as it was, or it
has kept the fault in which the evaluation ends, as the first one. -/
def Report.Told (r : Report) {α : Type} : EStateM.Result Exit Machine α → Prop
  | .ok _ m => m.report = r
  | .error e m => m.report = r ∨ ∃ f, e = .fault f ∧ r.fault = none ∧ m.report.fault = some f

/-- Nothing but the fault in which the evaluation ends is told to the report. -/
def Eval.Truthful {α : Type} (x : Eval α) : Prop := ∀ m : Machine, m.report.Told (x m)

/-- The report is as it was if the evaluation ends in no fault. -/
lemma Report.Told.unchanged {r : Report} {α : Type} {e : Exit} {m : Machine}
    (h : r.Told (.error e m : EStateM.Result Exit Machine α)) (he : ∀ f, e ≠ .fault f) :
    m.report = r := by
  rcases h with h | ⟨f, hf, _⟩
  · exact h
  · exact absurd hf (he f)

/-- A fault on its way up is kept if it is the first. -/
lemma Report.Told.recordFault {r : Report} {α : Type} {f : Fault} {m : Machine}
    (h : r.Told (.error (.fault f) m : EStateM.Result Exit Machine α)) :
    r.Told (.error (.fault f) (m.recordFault f) : EStateM.Result Exit Machine α) := by
  unfold Machine.recordFault Report.record
  rcases h with h | ⟨g, hg, hr, hm⟩
  · cases hf : m.report.fault with
    | none => exact .inr ⟨f, rfl, by rw [← h, hf], rfl⟩
    | some g => exact .inl h
  · rw [hm]
    exact .inr ⟨g, hg, hr, hm⟩

namespace Eval.Truthful

variable {α β : Type} {x : Eval α}

lemma own (hx : x.Own) : x.Truthful := by
  intro m
  cases hx with
  | @onStore _ y _ =>
    rw [onStore_eq]
    split
    · rfl
    · exact .inl rfl
  | builtin b args =>
    rw [onWorld_eq]
    split
    · rfl
    · exact .inl rfl
  | askStore y =>
    unfold askStore
    split
    · rfl
    · exact .inl rfl
  | atLine line =>
    show (if line = 0 then m else { m with stack := m.stack.setLine line }).report = m.report
    split <;> rfl
  | _ => rfl

lemma loading (hx : x.Loading) : x.Truthful := by
  intro m
  cases hx <;> rfl

lemma bind {f : α → Eval β} (hx : x.Truthful) (hf : ∀ a, (f a).Truthful) :
    (x >>= f).Truthful := by
  intro m
  have h := hx m
  show m.report.Told (EStateM.bind x f m)
  unfold EStateM.bind
  generalize x m = r at h ⊢
  cases r with
  | ok a m₁ => rw [← show m₁.report = m.report from h]; exact hf a m₁
  | error e m₁ => exact h

lemma recording (hx : x.Truthful) : (Eval.recording x).Truthful := by
  intro m
  have h := hx m
  unfold Eval.recording
  generalize x m = r at h ⊢
  cases r with
  | ok a m₁ => exact h
  | error e m₁ =>
    cases e with
    | fault f => exact h.recordFault
    | _ => exact h

lemma withFrame (hx : x.Truthful) (path function : String) :
    (Eval.withFrame path function x).Truthful := by
  intro m
  have h := hx { m with stack := m.stack.push path function }
  unfold Eval.withFrame
  generalize x _ = r at h ⊢
  cases r <;> exact h

lemma withModule (hx : x.Truthful) (r : Ref .module) : (Eval.withModule r x).Truthful := by
  intro m
  have h := hx { m with module := some r }
  unfold Eval.withModule
  generalize x _ = r at h ⊢
  cases r <;> exact h

lemma takingReturn {x : Eval Value} (hx : x.Truthful) : (Eval.takingReturn x).Truthful := by
  intro m
  have h := hx m
  unfold Eval.takingReturn
  generalize x m = r at h ⊢
  cases r with
  | ok a m₁ => exact h
  | error e m₁ =>
    cases e with
    | returning v => exact h.unchanged nofun
    | _ => exact h

lemma boundingDepth (hx : x.Truthful) : (Eval.boundingDepth x).Truthful := by
  intro m
  have h := hx m
  unfold Eval.boundingDepth
  generalize x m = r at h ⊢
  cases r with
  | ok a m₁ => exact h
  | error e m₁ =>
    cases e with
    | tooDeep => exact .inl (h.unchanged nofun)
    | _ => exact h

lemma outsideLoops (hx : x.Truthful) : (Eval.outsideLoops x).Truthful := by
  intro m
  have h := hx m
  unfold Eval.outsideLoops
  generalize x m = r at h ⊢
  cases r with
  | ok a m₁ => exact h
  | error e m₁ =>
    cases e with
    | breaking => exact Report.Told.recordFault (.inl (h.unchanged nofun))
    | continuing => exact Report.Told.recordFault (.inl (h.unchanged nofun))
    | _ => exact h

lemma loopRound (hx : x.Truthful) : (Eval.loopRound x).Truthful := by
  intro m
  have h := hx m
  unfold Eval.loopRound
  generalize x m = r at h ⊢
  cases r with
  | ok a m₁ => exact h
  | error e m₁ =>
    cases e with
    | breaking => exact h.unchanged nofun
    | continuing => exact h.unchanged nofun
    | _ => exact h

end Eval.Truthful

/-- Truthfulness as a congruence. It looks at one of two evaluations only. -/
def Congruence.truthfulness : Congruence where
  Rel _ _ x _ := x.Truthful
  own := .own
  loading := .loading
  exit _ _ := .inl rfl
  bind := .bind
  widen := id
  loosen := id
  recording := .recording
  withFrame path function hx := hx.withFrame path function
  withModule r hx := hx.withModule r
  takingReturn := .takingReturn
  outsideLoops := .outsideLoops
  loopRound := .loopRound

/-! ### What the host is answered -/

/-- The report holds the fault that an evaluation answers, and none if it answers a value. -/
def Report.Agrees {α : Type} : EStateM.Result Exit Machine α → Prop
  | .ok _ m => m.report.fault = none
  | .error (.fault f) m => m.report.fault = some f
  | .error _ _ => True

/-- If the report held no fault at first, it agrees once the last fault is kept. -/
lemma Eval.Truthful.agrees {α : Type} {x : Eval α} (hx : x.Truthful) {m : Machine}
    (hm : m.report.fault = none) : Report.Agrees (Eval.recording x m) := by
  have h := hx m
  unfold Eval.recording
  generalize x m = r at h ⊢
  cases r with
  | ok a m₁ => exact (congrArg Report.fault h).trans hm
  | error e m₁ =>
    cases e with
    | fault f =>
      show (m₁.report.record f _).fault = some f
      unfold Report.record
      rcases h with h | ⟨g, hg, _, hm₁⟩
      · rw [h, hm]
      · cases hg
        rw [hm₁]
        exact hm₁
    | _ => trivial

/-- Taking off a frame changes nothing about the report. -/
lemma Report.Agrees.atBottom {α : Type} {x : Eval α} {m : Machine}
    (h : ∀ stack, Report.Agrees (x { m with stack := stack })) :
    Report.Agrees (Eval.atBottom x m) := by
  unfold Eval.atBottom
  split
  · have h' := h (m.stack.push m.modulePath "<module>")
    unfold Eval.withFrame
    generalize x _ = r at h' ⊢
    rcases r with _ | ⟨e, _⟩
    · exact h'
    · cases e <;> exact h'
  · exact h m.stack

/-- The report agrees with what the host is answered for a node. -/
theorem Eval.evaluate_agrees (host : Host) (limits : Limits) (n : Node) (scope : Ref .scope)
    (m : Machine) : Report.Agrees (Eval.evaluate host limits n scope m) := by
  have hx := (Congruence.truthfulness.relates_ofDepth host limits.rounds limits.depth).node scope n
  refine Report.Agrees.atBottom (m := { m with report := m.report.reset }) fun stack => ?_
  exact (hx.outsideLoops.takingReturn.boundingDepth).agrees rfl

/-! ### What the host does by itself -/

/-- Leaves the report alone and ends in no fault, unless the host fails. -/
def Eval.Quiet {α : Type} (x : Eval α) : Prop :=
  ∀ m, (∃ a m', x m = .ok a m' ∧ m'.report = m.report) ∨ ∃ c m', x m = .error (.crash c) m'

namespace Eval.Quiet

variable {α β : Type} {x : Eval α}

lemma pure (a : α) : (Pure.pure a : Eval α).Quiet := fun m => .inl ⟨a, m, rfl, rfl⟩

lemma get : (MonadState.get : Eval Machine).Quiet := fun m => .inl ⟨m, m, rfl, rfl⟩

lemma bind {f : α → Eval β} (hx : x.Quiet) (hf : ∀ a, (f a).Quiet) : (x >>= f).Quiet := by
  intro m
  show (∃ b m', EStateM.bind x f m = .ok b m' ∧ _) ∨
    ∃ c m', EStateM.bind x f m = .error (.crash c) m'
  unfold EStateM.bind
  rcases hx m with ⟨a, m₁, hm, hr⟩ | ⟨c, m₁, hm⟩
  · rw [hm, ← hr]
    exact hf a m₁
  · rw [hm]
    exact .inr ⟨c, m₁, rfl⟩

lemma orCrash (y : Except Crash α) : (Eval.orCrash y).Quiet := by
  cases y with
  | ok a => exact pure a
  | error c => exact fun m => .inr ⟨c, m, rfl⟩

lemma newModuleAt (path : String) : (Eval.onStore (StoreM.newModuleAt path)).Quiet := by
  intro m
  rw [onStore_eq, StoreM.newModuleAt_eq]
  exact .inl ⟨_, _, rfl, rfl⟩

lemma newCachedModule (path : String) : (Eval.newCachedModule path).Quiet :=
  (newModuleAt path).bind fun _ => get.bind fun _ => (orCrash _).bind fun _ =>
    .bind (fun _ => .inl ⟨_, _, rfl, rfl⟩) fun _ => pure _

lemma moduleOfFile (host : Host) (raw : String) : (Eval.moduleOfFile host raw).Quiet := by
  refine (orCrash _).bind fun path => get.bind fun m => ?_
  split
  · exact pure _
  · exact newCachedModule path.text

lemma openModule (host : Host) (raw : String) : (Eval.openModule host raw).Quiet := by
  have enter (r : Ref .module) : (do
      modify fun m => { m with module := some r }
      return ((← Eval.store).module r).scope : Eval (Ref .scope)).Quiet :=
    fun m => .inl ⟨_, _, rfl, rfl⟩
  unfold Eval.openModule
  dsimp only
  split
  · exact (newModuleAt "").bind enter
  · exact (moduleOfFile host raw).bind enter

/-- Complaining reads the report. -/
lemma complain (host : Host) : (Eval.complain host).Quiet := by
  refine get.bind fun m => ?_
  split
  · exact pure ()
  · refine .bind (get.bind fun m => ?_) fun text m => .inl ⟨_, _, rfl, rfl⟩
    intro m'
    dsimp only [Eval.onSources]
    cases SourceM.traceback host.reader host.files m.report m'.sources with
    | ok text sources => exact .inl ⟨_, _, rfl, rfl⟩
    | error c sources => exact .inr ⟨_, _, rfl⟩

end Eval.Quiet

namespace Report.Agrees

variable {α β : Type} {m : Machine}

/-- Something quiet comes first. -/
lemma bind {x : Eval α} {f : α → Eval β} (hx : x.Quiet) (hm : m.report.fault = none)
    (hf : ∀ a m', m'.report.fault = none → Report.Agrees (f a m')) :
    Report.Agrees ((x >>= f) m) := by
  show Report.Agrees (EStateM.bind x f m)
  unfold EStateM.bind
  rcases hx m with ⟨a, m₁, h, hr⟩ | ⟨c, m₁, h⟩
  · rw [h]
    exact hf a m₁ (hr ▸ hm)
  · rw [h]
    trivial

/-- A fault that no frame has to do with is kept as well. -/
lemma faultNowhere (f : Fault) (hm : m.report.fault = none) :
    Report.Agrees (Eval.faultNowhere f m : EStateM.Result Exit Machine α) := by
  show (m.report.record f []).fault = some f
  unfold Report.record
  rw [hm]

lemma complaining {x : Eval α} (host : Host) (h : Report.Agrees (x m)) :
    Report.Agrees (Eval.complaining host x m) := by
  unfold Eval.complaining
  generalize x m = r at h ⊢
  rcases r with ⟨a, m₁⟩ | ⟨e, m₁⟩
  · exact h
  · cases e with
    | fault f =>
      dsimp only
      rcases Eval.Quiet.complain host m₁ with ⟨u, m₂, hc, hm₂⟩ | ⟨c, m₂, hc⟩
      · rw [hc]
        exact (congrArg Report.fault hm₂).trans h
      · rw [hc]
        trivial
    | _ => trivial

lemma mainProgram (host : Host) (limits : Limits) (raw : String) (hm : m.report.fault = none) :
    Report.Agrees (Eval.mainProgram host limits raw m) := by
  refine bind (.orCrash _) hm fun read m₁ h₁ => ?_
  cases read with
  | error refusal => exact faultNowhere _ h₁
  | ok text =>
    refine bind (.openModule host raw) h₁ fun scope m₂ h₂ => bind .get h₂ fun m₃ m₃ h₃ => ?_
    refine bind (fun m => .inl ⟨_, _, rfl, rfl⟩) h₃ fun parsed m₄ h₄ => ?_
    cases parsed with
    | crash c => trivial
    | syntaxError message => exact faultNowhere _ h₄
    | program p => exact Eval.evaluate_agrees host limits (.program p) scope m₄

end Report.Agrees

/-- The report agrees with what the host is answered for a file. -/
theorem Eval.runFile_agrees (host : Host) (limits : Limits) (raw : String) (m : Machine) :
    Report.Agrees (Eval.runFile host limits raw m) :=
  Report.Agrees.complaining host (Report.Agrees.mainProgram host limits raw rfl)

/-! ### Between two turns -/

/-- The report of session `i` holds the fault that its turn answered, and none if it answered a
value. -/
def Engine.ReportsTurn (i : Nat) (t : Turn Value × Engine) : Prop :=
  (∀ v, t.1.result = .ok v → (t.2.sessions.get i).report.fault = none) ∧
    ∀ f, t.1.result = .error (.fault f) → (t.2.sessions.get i).report.fault = some f

lemma Engine.reportsTurn_of_agrees {p : Engine} {i : Nat} {x : Eval Value}
    (h : Report.Agrees (x (p.machine i))) : Engine.ReportsTurn i (p.turn i x) := by
  unfold Engine.turn Engine.absorb
  generalize x (p.machine i) = r at h ⊢
  cases r with
  | ok v m =>
    refine ⟨fun _ _ => ?_, nofun⟩
    rw [Arena.get_set_self]
    exact h
  | error e m =>
    refine ⟨nofun, fun f hf => ?_⟩
    cases hf
    rw [Arena.get_set_self]
    exact h

/-- **The report agrees with the answer**, whatever it held before: when a turn of a session ends
with an answer, the report holds that very fault, or none if the answer is a value. -/
theorem Engine.turn_reports_answer (p : Engine) (i : Nat) (host : Host) (limits : Limits) :
    (∀ n scope, Engine.ReportsTurn i (p.turn i (Eval.evaluate host limits n scope))) ∧
      ∀ raw, Engine.ReportsTurn i (p.turn i (Eval.runFile host limits raw)) :=
  ⟨fun n scope => reportsTurn_of_agrees (Eval.evaluate_agrees host limits n scope _),
    fun raw => reportsTurn_of_agrees (Eval.runFile_agrees host limits raw _)⟩

end Wei
