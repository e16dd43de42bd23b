import Wei.Proofs.Extension
import Wei.Proofs.Frames
import Wei.Proofs.Propagation

/-!
What a construct asks of its parts, one after the other.

A construct does something of its own, has a part evaluated, goes on with what came of it, has the
next part evaluated, and in the end answers. A *plan* says this of a construct as a function of the
evaluator for its parts: in which states parts are asked for, what becomes of the construct when a
part exits, and how it can end by itself. What is asked is told apart by what has been asked before,
and nothing but the parts changes the cache and the functions of the store, unless the plan says so.

From a plan it can be read which parts a construct evaluates, and whether an exit is its own or that
of a part.
-/

/-- The state in which an operation has ended, however it ended. -/
def EStateM.Result.state {ε σ α : Type} : EStateM.Result ε σ α → σ
  | .ok _ s => s
  | .error _ s => s

lemma EStateM.after_eq_state {ε σ α : Type} (x : EStateM ε σ α) (s : σ) :
    x.after s = (x s).state := by
  unfold EStateM.after
  cases x s <;> rfl

namespace Wei

/-- What an evaluation comes to. -/
abbrev Outcome (α : Type) := EStateM.Result Exit Machine α

/-- A part of a construct, with the state in which it has been evaluated and what came of it. -/
structure Query where
  task : Task
  start : Machine
  outcome : Outcome task.Answer

/-- The part has been asked for in this state. -/
def Asked (h : List Query) (t : Task) (m : Machine) : Prop := ∃ r, ⟨t, m, r⟩ ∈ h

lemma asked_of_mem {h : List Query} {q : Query} {t : Task} {m : Machine} (hq : q ∈ h)
    (heq : (q.task, q.start) = (t, m)) : Asked h t m := by
  obtain ⟨t', m', r⟩ := q
  cases heq
  exact ⟨r, hq⟩

/-- Nothing that constructs are made of takes the exit. -/
def Exit.Final : Exit → Prop
  | .returning _ => False
  | .breaking => False
  | .continuing => False
  | _ => True

/-- Something has failed, or has gone on for too long. -/
def Exit.Failing : Exit → Prop
  | .fault _ => True
  | .crash _ => True
  | .unfinished => True
  | _ => False

lemma Exit.Failing.final {e : Exit} (h : e.Failing) : e.Final := by
  cases e <;> trivial

/-! ### What is kept -/

/-- The frames, the current module and the report are what they were, and the store has been
extended. -/
structure Machine.Steady (m m' : Machine) : Prop where
  stack : m'.stack = m.stack
  module : m'.module = m.module
  report : m'.report = m.report
  store : m.world.store.Extends m'.world.store

/-- As before, but the innermost frame may be on another line. -/
structure Machine.Onward (m m' : Machine) : Prop where
  stack : m.stack.SameButLine m'.stack
  module : m'.module = m.module
  report : m'.report = m.report
  store : m.world.store.Extends m'.world.store

namespace Machine

variable {m m' m'' : Machine}

@[refl] lemma Steady.refl (m : Machine) : m.Steady m := ⟨rfl, rfl, rfl, .refl _⟩

lemma Steady.trans (h : m.Steady m') (h' : m'.Steady m'') : m.Steady m'' :=
  ⟨h'.stack.trans h.stack, h'.module.trans h.module, h'.report.trans h.report,
    h.store.trans h'.store⟩

lemma Steady.onward (h : m.Steady m') : m.Onward m' :=
  ⟨h.stack ▸ .refl _, h.module, h.report, h.store⟩

@[refl] lemma Onward.refl (m : Machine) : m.Onward m := (Steady.refl m).onward

lemma Onward.trans (h : m.Onward m') (h' : m'.Onward m'') : m.Onward m'' :=
  ⟨h.stack.trans h'.stack, h'.module.trans h.module, h'.report.trans h.report,
    h.store.trans h'.store⟩

/-- Keeps the exit if it is a fault. -/
def noting (m : Machine) : Exit → Machine
  | .fault f => m.recordFault f
  | _ => m

end Machine

/-- The evaluation has left a state that is so related to the first. If it ended in a fault, the
report may tell of that. -/
def Machine.Leaves (m : Machine) (R : Machine → Machine → Prop) {α : Type} : Outcome α → Prop
  | .ok _ m₁ => R m m₁
  | .error (.fault _) m₁ => R m { m₁ with report := m.report }
  | .error _ m₁ => R m m₁

/-- The evaluation has left the frame on its line, and if it exited, no construct takes that. -/
structure Machine.LeavesSteady (m : Machine) {α : Type} (r : Outcome α) : Prop where
  steady : m.Leaves Machine.Steady r
  final {e : Exit} {m₁ : Machine} : r = .error e m₁ → e.Final

/-- What is to be expected of an evaluator: statements may leave the frame on another line, and they
may be on the way to a loop or to the end of a function; other tasks may not. -/
def Task.Keeps : (t : Task) → Machine → Outcome t.Answer → Prop
  | .expr _ _, m, r => m.LeavesSteady r
  | .stmt _ _, m, r => m.Leaves Machine.Onward r
  | .walk _, m, r => m.LeavesSteady r

/-- The evaluator does what is to be expected of it. -/
def Evaluator.Keeping (ev : Evaluator) : Prop := ∀ (t : Task) (m : Machine), t.Keeps m (ev.run t m)

/-! ### When a part exits -/

/-- What becomes of a construct when a part exits: it may go on, or it exits as well, in some state.
-/
abbrev Reaction := Exit → Machine → Option (Exit × Machine)

namespace Reaction

/-- Whatever the exit is, it comes out. -/
def pass : Reaction := fun e m => some (e, m)

/-- Those exits come out, and faults are kept in the report. -/
def noting (lets : Exit → Bool) : Reaction :=
  fun e m => if lets e then some (e, m.noting e) else none

/-- What comes out is changed once more. -/
def after (u : Reaction) (w : Exit → Machine → Exit × Machine) : Reaction :=
  fun e m => (u e m).map fun out => w out.1 out.2

/-- Exits that nothing takes come out, and the world is left as it is. -/
structure Fair (u : Reaction) : Prop where
  final {e : Exit} {m : Machine} : e.Final → ∃ m', u e m = some (e, m')
  world {e e' : Exit} {m m' : Machine} : u e m = some (e', m') → m'.world = m.world

lemma pass_fair : pass.Fair where
  final _ := ⟨_, rfl⟩
  world h := by
    cases h
    rfl

lemma noting_fair {lets : Exit → Bool} (h : ∀ e, e.Final → lets e = true) : (noting lets).Fair where
  final he := ⟨_, if_pos (h _ he)⟩
  world {e e' m m'} hu := by
    unfold noting at hu
    split at hu
    · cases hu
      cases e <;> rfl
    · cases hu

lemma Fair.after {u : Reaction} (hu : u.Fair) {w : Exit → Machine → Exit × Machine}
    (hfinal : ∀ e m, e.Final → (w e m).1 = e) (hworld : ∀ e m, (w e m).2.world = m.world) :
    (u.after w).Fair where
  final {e m} he := by
    obtain ⟨m', h⟩ := hu.final (m := m) he
    refine ⟨(w e m').2, ?_⟩
    unfold Reaction.after
    rw [h]
    exact congrArg some (Prod.ext (hfinal e m' he) rfl)
  world {e e' m m'} h := by
    obtain ⟨⟨e₁, m₁⟩, h₁, h₂⟩ := Option.map_eq_some_iff.mp h
    obtain rfl : (w e₁ m₁).2 = m' := congrArg Prod.snd h₂
    exact (hworld e₁ m₁).trans (hu.world h₁)

end Reaction

/-! ### Plans -/

/-- What constructs do not change by themselves: the cache, and the functions of the store. -/
structure Stock where
  cache : ModuleCache
  functions : Arena Closure

/-- The cache and the functions. -/
def Machine.stock (m : Machine) : Stock := ⟨m.world.cache, m.world.store.functions⟩

/-- How a construct goes about it: for what it asks when this has been asked before, the latest
first, and what becomes of it if that exits; and how it changes the stock by itself then. -/
structure Manner where
  Asks : List Query → Task → Machine → Reaction → Prop
  Alters : List Query → Stock → Stock → Prop

/-- The same when so much has been asked already. -/
def Manner.since (M : Manner) (h₀ : List Query) : Manner where
  Asks h t m u := h₀ <:+ h ∧ M.Asks h t m u
  Alters h σ σ' := h₀ <:+ h ∧ M.Alters h σ σ'

/-- **A plan.** Something that hangs on an evaluator asks for parts in this manner, and ends like
this unless a part makes it exit. So much has been asked already, and this is the stock. -/
inductive Manner.Plan (M : Manner) {α : Type} (Q : List Query → Outcome α → Prop) :
    List Query → Stock → (Evaluator → Outcome α) → Prop
  /-- It is at an end. -/
  | answer {h : List Query} {r : Outcome α} : Q h r → Plan M Q h r.state.stock fun _ => r
  /-- It asks for a part, and goes on with what comes of it. -/
  | ask {h : List Query} {t : Task} {m : Machine} {u : Reaction}
      {k : Outcome t.Answer → Evaluator → Outcome α} :
    M.Asks h t m u → u.Fair →
      (∀ ev e m₁ e' m₂, u e m₁ = some (e', m₂) → k (.error e m₁) ev = .error e' m₂) →
      (∀ r, t.Keeps m r → (∀ e m₁, r = .error e m₁ → u e m₁ = none) →
        Plan M Q (⟨t, m, r⟩ :: h) r.state.stock (k r)) →
      Plan M Q h m.stock fun ev => k (ev.run t m) ev
  /-- It changes the stock. -/
  | alter {h : List Query} {σ σ' : Stock} {F : Evaluator → Outcome α} :
    M.Alters h σ σ' → Plan M Q h σ' F → Plan M Q h σ F

namespace Manner.Plan

open EStateM (Result)

variable {M M' : Manner} {α β : Type} {Q Q' : List Query → Outcome α → Prop}
  {S : List Query → Outcome β → Prop} {h : List Query} {σ : Stock} {F : Evaluator → Outcome α}

lemma imp (hF : M.Plan Q h σ F) (hQ : ∀ h r, Q h r → Q' h r) : M.Plan Q' h σ F := by
  induction hF with
  | answer hr => exact .answer (hQ _ _ hr)
  | ask hask hfair hexit _ ih => exact .ask hask hfair hexit ih
  | alter halter _ ih => exact .alter halter ih

lemma mono (hF : M.Plan Q h σ F) (hask : ∀ h t m u, M.Asks h t m u → M'.Asks h t m u)
    (halter : ∀ h σ σ', M.Alters h σ σ' → M'.Alters h σ σ') : M'.Plan Q h σ F := by
  induction hF with
  | answer hr => exact .answer hr
  | ask hasks hfair hexit _ ih => exact .ask (hask _ _ _ _ hasks) hfair hexit ih
  | alter h _ ih => exact .alter (halter _ _ _ h) ih

/-- What has been asked stays. -/
lemma since {h₀ : List Query} (hF : M.Plan Q h σ F) (hh : h₀ <:+ h) :
    (M.since h₀).Plan Q h σ F := by
  induction hF with
  | answer hr => exact .answer hr
  | ask hasks hfair hexit _ ih =>
    exact .ask ⟨hh, hasks⟩ hfair hexit fun r hr hgoes =>
      ih r hr hgoes (hh.trans (List.suffix_cons ..))
  | alter h _ ih => exact .alter ⟨hh, h⟩ (ih hh)

/-! ### One thing after the other -/

/-- What is done with an outcome. -/
lemma andThen {g : Evaluator → α → Eval β} (hF : M.Plan Q h σ F)
    (hok : ∀ h a m, Q h (.ok a m) → M.Plan S h m.stock fun ev => g ev a m)
    (herror : ∀ h e m, Q h (.error e m) → S h (.error e m)) (m : Machine) :
    M.Plan S h σ fun ev => EStateM.bind (fun _ => F ev) (g ev) m := by
  induction hF with
  | @answer h r hr =>
    cases r with
    | ok a m₁ => exact hok h a m₁ hr
    | error e m₁ => exact .answer (herror h e m₁ hr)
  | @ask h t m₀ u k hask hfair hexit _ ih =>
    refine .ask (k := fun r ev => EStateM.bind (fun _ => k r ev) (g ev) m) hask hfair ?_ ih
    intro ev e m₁ e' m₂ hu
    unfold EStateM.bind
    rw [hexit ev e m₁ e' m₂ hu]
  | alter halter _ ih => exact .alter halter ih

/-- Something comes first. -/
lemma bind {x : Evaluator → Eval α} {g : Evaluator → α → Eval β} {m : Machine}
    (hx : M.Plan Q h σ fun ev => x ev m)
    (hok : ∀ h a m₁, Q h (.ok a m₁) → M.Plan S h m₁.stock fun ev => g ev a m₁)
    (herror : ∀ h e m₁, Q h (.error e m₁) → S h (.error e m₁)) :
    M.Plan S h σ fun ev => (x ev >>= g ev) m :=
  hx.andThen hok herror m

/-- Something of its own comes first. -/
lemma own_bind {x : Eval α} {g : Evaluator → α → Eval β} {m : Machine}
    (hok : ∀ a m₁, x m = .ok a m₁ → m₁.stock = m.stock ∧ M.Plan S h m₁.stock fun ev => g ev a m₁)
    (herror : ∀ e m₁, x m = .error e m₁ → m₁.stock = m.stock ∧ S h (.error e m₁)) :
    M.Plan S h m.stock fun ev => (x >>= g ev) m := by
  have hplan : M.Plan (fun h' r => h' = h ∧ r = x m) h m.stock fun _ => x m := by
    have hstock : (x m).state.stock = m.stock := by
      cases hx : x m with
      | ok a m₁ => exact (hok a m₁ hx).1
      | error e m₁ => exact (herror e m₁ hx).1
    rw [← hstock]
    exact .answer ⟨rfl, rfl⟩
  refine hplan.bind (x := fun _ => x) (fun h' a m₁ hx => ?_) fun h' e m₁ hx => ?_
  · obtain ⟨rfl, hx⟩ := hx
    exact (hok a m₁ hx.symm).2
  · obtain ⟨rfl, hx⟩ := hx
    exact (herror e m₁ hx.symm).2

/-! ### Something around it -/

/-- Something is put around it. Of what comes out of it when a part exits, that lets some out,
perhaps changed, and is at an end with the rest. -/
lemma around {g : Outcome α → Outcome β} (hF : M.Plan Q h σ F)
    (halter : ∀ h σ σ', M.Alters h σ σ' → M'.Alters h σ σ')
    (hask : ∀ h t m u, M.Asks h t m u → ∃ u', M'.Asks h t m u' ∧ u'.Fair ∧
      (∀ e m₁ e' m₂, u' e m₁ = some (e', m₂) →
        ∃ e₁ m₃, u e m₁ = some (e₁, m₃) ∧ g (.error e₁ m₃) = .error e' m₂) ∧
      ∀ e m₁ e₁ m₃, t.Keeps m (.error e m₁) → u' e m₁ = none → u e m₁ = some (e₁, m₃) →
        S (⟨t, m, .error e m₁⟩ :: h) (g (.error e₁ m₃)) ∧ (g (.error e₁ m₃)).state.stock = m₁.stock)
    (hanswer : ∀ h r, Q h r → S h (g r) ∧ (g r).state.stock = r.state.stock) :
    M'.Plan S h σ fun ev => g (F ev) := by
  induction hF with
  | @answer h r hr =>
    obtain ⟨hS, hstock⟩ := hanswer h r hr
    rw [← hstock]
    exact .answer hS
  | @ask h t m₀ u k hasks hfair hexit _ ih =>
    obtain ⟨u', hasks', hfair', hout, hend⟩ := hask h t m₀ u hasks
    refine .ask (k := fun r ev => g (k r ev)) hasks' hfair' ?_ ?_
    · intro ev e m₁ e' m₂ hu'
      obtain ⟨e₁, m₃, hu, hg⟩ := hout e m₁ e' m₂ hu'
      show g (k (.error e m₁) ev) = _
      rw [hexit ev e m₁ e₁ m₃ hu, hg]
    · intro r hr hgoes
      by_cases hpasses : ∀ e m₁, r = .error e m₁ → u e m₁ = none
      · exact ih r hr hpasses
      · push Not at hpasses
        obtain ⟨e, m₁, rfl, hu⟩ := hpasses
        obtain ⟨⟨e₁, m₃⟩, hu⟩ := Option.ne_none_iff_exists'.mp hu
        obtain ⟨hS, hstock⟩ := hend e m₁ e₁ m₃ hr (hgoes e m₁ rfl) hu
        have hk : (fun ev => g (k (.error e m₁) ev)) = fun _ => g (.error e₁ m₃) :=
          funext fun ev => congrArg g (hexit ev e m₁ e₁ m₃ hu)
        rw [hk, EStateM.Result.state, ← hstock]
        exact .answer hS
  | alter h _ ih => exact .alter (halter _ _ _ h) ih

end Manner.Plan

/-! ### Reading a plan -/

/-- What has come into the stock has come by a part, or by the construct itself. -/
def Manner.Traces (M : Manner) (σ : Stock) (h : List Query) (σ' : Stock) : Prop :=
  ∀ T : Stock → Prop, T σ' → T σ ∨
    (∃ q ∈ h, ¬ T q.start.stock ∧ T q.outcome.state.stock) ∨
    ∃ h' σ₁ σ₂, h' <:+ h ∧ M.Alters h' σ₁ σ₂ ∧ ¬ T σ₁ ∧ T σ₂

namespace Evaluator

open Classical in
/-- The evaluator that exits over one task in one state. -/
noncomputable def exitingAt (x : Exit) (t : Task) (m : Machine) (parts : Evaluator) :
    Evaluator where
  expr scope e m' := if (.expr scope e, m') = (t, m) then .error x m else parts.expr scope e m'
  stmt scope s m' := if (.stmt scope s, m') = (t, m) then .error x m else parts.stmt scope s m'
  walk v m' := if (.walk v, m') = (t, m) then .error x m else parts.walk v m'

lemma agreesBut_exitingAt (x : Exit) (t : Task) (m : Machine) (parts : Evaluator) :
    AgreesBut t m parts (parts.exitingAt x t m) := by
  intro t' m' h
  cases t' <;> exact (if_neg h).symm

lemma run_exitingAt (x : Exit) (t : Task) (m : Machine) (parts : Evaluator) :
    (parts.exitingAt x t m).run t m = .error x m := by
  cases t <;> exact if_pos rfl

variable {α : Type}

/-- The construct evaluates the part, and goes on with what comes of it. -/
structure Passes (parts : Evaluator) (construct : Evaluator → Eval α) (m : Machine) (M : Manner)
    (q : Query) : Prop where
  evaluates : parts.Evaluates construct m q.task q.start
  run : parts.run q.task q.start = q.outcome
  goes : ∃ h u, M.Asks h q.task q.start u ∧ ∀ e m₁, q.outcome = .error e m₁ → u e m₁ = none

/-- The construct, started in `m`, has gone through these parts and has come to this stock. -/
structure Since (parts : Evaluator) (construct : Evaluator → Eval α) (m : Machine) (M : Manner)
    (h : List Query) (σ : Stock) : Prop where
  passes : ∀ q ∈ h, parts.Passes construct m M q
  traces : M.Traces m.stock h σ

/-- This is left of the construct when it has gone through these parts. -/
structure Stage (parts : Evaluator) (construct : Evaluator → Eval α) (m : Machine) (M : Manner)
    (h : List Query) (σ : Stock) (F : Evaluator → Outcome α) : Prop where
  since : parts.Since construct m M h σ
  known : ∀ q ∈ h, ∃ h' u, M.Asks h' q.task q.start u ∧
    parts.Since construct m M h' q.start.stock
  remains {other : Evaluator} :
    (∀ q ∈ h, other.run q.task q.start = q.outcome) → construct other m = F other

/-- What can be read off a plan. -/
structure Reading (parts : Evaluator) (construct : Evaluator → Eval α) (m : Machine) (M : Manner)
    (Q : List Query → Outcome α → Prop) : Prop where
  /-- What is evaluated has been asked for. -/
  asks {t : Task} {m' : Machine} : parts.Evaluates construct m t m' →
    ∃ h u, M.Asks h t m' u ∧ parts.Since construct m M h m'.stock
  /-- The construct exits because a part does, or it goes through all parts and ends by itself. -/
  ends :
    (∃ h t m' u e m₁ e' m₂, M.Asks h t m' u ∧ parts.Since construct m M h m'.stock ∧
      parts.Evaluates construct m t m' ∧ parts.run t m' = .error e m₁ ∧ u e m₁ = some (e', m₂) ∧
      m₂.world = m₁.world ∧ construct parts m = .error e' m₂) ∨
    ∃ h, Q h (construct parts m) ∧ parts.Since construct m M h (construct parts m).state.stock ∧
      ∀ t m', parts.Evaluates construct m t m' → Asked h t m'

variable {parts : Evaluator} {construct : Evaluator → Eval α} {m : Machine} {M : Manner}
  {Q : List Query → Outcome α → Prop} {h : List Query} {σ : Stock} {F : Evaluator → Outcome α}

lemma Stage.start : parts.Stage construct m M [] m.stock fun ev => construct ev m :=
  ⟨⟨List.forall_mem_nil _, fun _ hT => .inl hT⟩, List.forall_mem_nil _, fun _ => rfl⟩

/-- There is an exit that nothing takes and that is not the one of the outcome. -/
lemma exists_final_ne (r : Outcome α) : ∃ e : Exit, e.Final ∧ ∀ m', r ≠ .error e m' := by
  by_cases h : ∃ m', r = .error .unfinished m'
  · obtain ⟨m', rfl⟩ := h
    exact ⟨.tooDeep, trivial, fun _ he => by cases he⟩
  · exact ⟨.unfinished, trivial, fun m' he => h ⟨m', he⟩⟩

/-- The parts that have been evaluated came to what they came to. -/
lemma Stage.here (hstage : parts.Stage construct m M h σ F) : construct parts m = F parts :=
  hstage.remains fun q hq => (hstage.since.passes q hq).run

/-- To change what a part comes to that has not been evaluated changes nothing yet. -/
lemma Stage.there (hstage : parts.Stage construct m M h σ F) {other : Evaluator} {t : Task}
    {m' : Machine} (hagree : AgreesBut t m' parts other) (hnew : ¬ Asked h t m') :
    construct other m = F other := by
  refine hstage.remains fun q hq => ?_
  rw [← hagree q.task q.start fun heq => hnew (asked_of_mem hq heq)]
  exact (hstage.since.passes q hq).run

/-- The part for which is asked is evaluated. -/
lemma Stage.evaluates {t : Task} {m' : Machine} {u : Reaction}
    {k : Outcome t.Answer → Evaluator → Outcome α}
    (hstage : parts.Stage construct m M h σ fun ev => k (ev.run t m') ev) (hfair : u.Fair)
    (hexit : ∀ ev e m₁ e' m₂, u e m₁ = some (e', m₂) → k (.error e m₁) ev = .error e' m₂) :
    parts.Evaluates construct m t m' := by
  by_cases hasked : Asked h t m'
  · obtain ⟨r, hr⟩ := hasked
    exact (hstage.since.passes _ hr).evaluates
  · obtain ⟨e, he, hne⟩ := exists_final_ne (construct parts m)
    obtain ⟨m₂, hu⟩ := hfair.final (m := m') he
    have hagree := agreesBut_exitingAt e t m' parts
    refine ⟨parts.exitingAt e t m', hagree, fun heq => ?_⟩
    have hother : construct (parts.exitingAt e t m') m = .error e m₂ := by
      rw [hstage.there hagree hasked, run_exitingAt]
      exact hexit _ _ _ _ _ hu
    exact hne m₂ (heq.symm.trans hother)

/-- What is left does not hang on other parts. -/
lemma Stage.asked_of_evaluates {t : Task} {m' : Machine} {r : Outcome α}
    (hstage : parts.Stage construct m M h σ fun _ => r)
    (heval : parts.Evaluates construct m t m') : Asked h t m' := by
  by_contra hnew
  obtain ⟨other, hagree, hne⟩ := heval
  exact hne ((hstage.there hagree hnew).trans hstage.here.symm)

/-- **What a plan says of a construct.** -/
theorem Stage.read (hparts : parts.Keeping) (hplan : M.Plan Q h σ F)
    (hstage : parts.Stage construct m M h σ F) : parts.Reading construct m M Q := by
  induction hplan with
  | @answer h r hr =>
    have hends : construct parts m = r := hstage.here
    refine ⟨fun heval => ?_, .inr ⟨h, ?_, ?_, ?_⟩⟩
    · obtain ⟨_, hasked⟩ := hstage.asked_of_evaluates heval
      exact hstage.known _ hasked
    · rw [hends]
      exact hr
    · rw [hends]
      exact hstage.since
    · exact fun t m' => hstage.asked_of_evaluates
  | @ask h t m' u k hask hfair hexit _ ih =>
    have heval := hstage.evaluates hfair hexit
    by_cases hgoes : ∀ e m₁, parts.run t m' = .error e m₁ → u e m₁ = none
    · -- the part has come to something with which the construct goes on
      refine ih _ (hparts t m') hgoes ⟨⟨?_, ?_⟩, ?_, ?_⟩
      · exact List.forall_mem_cons.mpr ⟨⟨heval, rfl, h, u, hask, hgoes⟩, hstage.since.passes⟩
      · intro T hT
        by_cases hbefore : T m'.stock
        · rcases hstage.since.traces T hbefore with h₀ | ⟨q, hq, hflips⟩ | ⟨h', σ₁, σ₂, hh', h₁⟩
          · exact .inl h₀
          · exact .inr (.inl ⟨q, List.mem_cons_of_mem _ hq, hflips⟩)
          · exact .inr (.inr ⟨h', σ₁, σ₂, hh'.trans (List.suffix_cons ..), h₁⟩)
        · exact .inr (.inl ⟨_, List.mem_cons_self, hbefore, hT⟩)
      · exact List.forall_mem_cons.mpr ⟨⟨h, u, hask, hstage.since⟩, hstage.known⟩
      · intro other hother
        obtain ⟨hself, hrest⟩ := List.forall_mem_cons.mp hother
        rw [hstage.remains hrest, hself]
    · -- the construct exits with the part
      push Not at hgoes
      obtain ⟨e, m₁, hrun, hu⟩ := hgoes
      obtain ⟨⟨e', m₂⟩, hu⟩ := Option.ne_none_iff_exists'.mp hu
      have hends : construct parts m = .error e' m₂ := by
        rw [hstage.here, hrun]
        exact hexit parts e m₁ e' m₂ hu
      refine ⟨fun {t'' m''} heval' => ?_, .inl ?_⟩
      · by_cases hsame : (t'', m'') = (t, m')
        · cases hsame
          exact ⟨h, u, hask, hstage.since⟩
        · by_contra hnew
          obtain ⟨other, hagree, hne⟩ := heval'
          refine hne ?_
          rw [hstage.there hagree fun hasked => hnew ?_, hends]
          · rw [← hagree t m' fun heq => hsame heq.symm, hrun]
            exact hexit other e m₁ e' m₂ hu
          · obtain ⟨_, hasked⟩ := hasked
            exact hstage.known _ hasked
      · exact ⟨h, t, m', u, e, m₁, e', m₂, hask, hstage.since, heval, hrun, hu, hfair.world hu,
          hends⟩
  | @alter h σ σ' F halter _ ih =>
    refine ih ⟨⟨hstage.since.passes, fun T hT => ?_⟩, hstage.known, hstage.remains⟩
    by_cases hbefore : T σ
    · exact hstage.since.traces T hbefore
    · exact .inr (.inr ⟨h, σ, σ', List.suffix_rfl, halter, hbefore, hT⟩)

/-- What the plan of a construct says of it. -/
theorem reading_of_plan (hparts : parts.Keeping)
    (hplan : M.Plan Q [] m.stock fun ev => construct ev m) : parts.Reading construct m M Q :=
  Stage.read hparts hplan .start

end Evaluator

end Wei
