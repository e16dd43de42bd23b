import Wei.Proofs.Statements

/-!
Every evaluator does what is to be expected of it.

When a part exits, the construct around it goes on or exits as well. The frames, the module and the
report are then as they should be after an exit of the construct, if they were so after that of the
part. With this and the plans of the constructs, evaluators of every depth keep what is expected,
and so what their tasks ask for, and how these end, can be read off the plans.
-/

namespace Wei

/-! ### What is to be expected of evaluators -/

namespace Machine

variable {m m' m₁ : Machine} {α β : Type} {r : Outcome α} {e : Exit}

lemma Leaves.onward (h : m.Leaves Steady r) : m.Leaves Onward r := by
  cases r with
  | ok a m₁ => exact Steady.onward h
  | error e m₁ =>
    cases e with
    | fault f => exact Steady.onward h
    | _ => exact Steady.onward h

/-- The exit of a part, for what it is a part of. -/
lemma Steady.leaves (hm : m.Steady m') (h : m'.Leaves (α := α) Steady (.error e m₁)) :
    m.Leaves (α := β) Steady (.error e m₁) := by
  cases e with
  | fault f => exact ⟨h.stack.trans hm.stack, h.module.trans hm.module, rfl, hm.store.trans h.store⟩
  | _ => exact hm.trans h

lemma Onward.leaves_exit (hm : m.Onward m') (h : m'.Leaves (α := α) Onward (.error e m₁)) :
    m.Leaves (α := β) Onward (.error e m₁) := by
  cases e with
  | fault f =>
    exact ⟨hm.stack.trans h.stack, h.module.trans hm.module, rfl, hm.store.trans h.store⟩
  | _ => exact hm.trans h

/-- To keep a fault changes the report only. -/
lemma Leaves.noting (h : m.Leaves (α := α) Onward (.error e m₁)) :
    m.Leaves (α := α) Onward (.error e (m₁.noting e)) := by
  cases e <;> exact h

lemma Leaves.module (h : m.Leaves (α := α) Onward (.error e m₁)) : m₁.module = m.module := by
  cases e <;> exact h.module

lemma Steady.leavesSteady (hm : m.Steady m') (h : m'.LeavesSteady (α := α) (.error e m₁)) :
    m.LeavesSteady (α := β) (.error e m₁) :=
  ⟨hm.leaves h.steady, fun he => h.final (by cases he; rfl)⟩

end Machine

lemma Part.fair {host : Host} {t t' : Task} {m m' : Machine} {h : List Query} {u : Reaction}
    (hpart : Part host t m h t' m' u) : u.Fair := by
  cases hpart with
  | expr _ _ => exact Reaction.pass_fair
  | name _ _ => exact Reaction.pass_fair
  | parent _ => exact Reaction.pass_fair
  | again _ _ _ _ => exact Reaction.pass_fair
  | member _ _ _ _ => exact Reaction.noting_fair fun _ _ => rfl
  | walk _ _ => exact Reaction.pass_fair
  | @stmt _ _ s₀ =>
    refine Reaction.noting_fair fun e he => ?_
    cases e with
    | breaking => exact he.elim
    | continuing => exact he.elim
    | _ => simp [Action.lets, Exit.isStray]
  | call _ _ _ => exact Reaction.called_fair
  | text _ _ _ _ => exact Reaction.loaded_fair _

lemma Reaction.called_module {e e' : Exit} {m m' : Machine} (h : called e m = some (e', m')) :
    m'.module = m.module := by
  cases e <;> cases h <;> rfl

/-- In the second state something has been entered from the first: it has a frame of its own. -/
structure Machine.Activates (m m' : Machine) : Prop where
  frames : ∃ f, m'.stack.frames = f :: m.stack.frames
  report : m'.report = m.report
  store : m.world.store.Extends m'.world.store

lemma Machine.Calls.activates {m m' : Machine} {f : Ref .function} {own : Ref .scope} {s : Stmt}
    (h : m.Calls f own s m') : m.Activates m' :=
  ⟨h.frame.imp' _ fun _ hframe => hframe, h.report, h.store⟩

lemma Machine.extends_atText (m : Machine) (host : Host) (path : String) :
    m.world.store.Extends (m.atText host path).world.store :=
  (StoreM.newModuleAt_sameCode path _).extends'

lemma Machine.Imports.activates {m m' : Machine} {host : Host} {name path : String} {s : Stmt}
    (h : m.Imports host name path s m') : m.Activates m' := by
  obtain ⟨line, hframes⟩ := h.onward.stack.frames_of_push
  exact ⟨⟨_, hframes⟩, h.onward.report, (m.extends_atText host path).trans h.onward.store⟩

/-- What comes out of a code that has been entered leaves frames and module as they were. -/
lemma Machine.Activates.leaves {m m' m₁ m₂ : Machine} {α β : Type} {e e' : Exit}
    (h : m.Activates m') (hkeeps : m'.Leaves (α := α) Machine.Onward (.error e m₁))
    (hu : Reaction.called e m₁ = some (e', m₂)) :
    m.LeavesSteady (α := β) (.error e' { m₂ with module := m.module }) := by
  obtain ⟨f, hframes⟩ := h.frames
  have hpop {m₁ : Machine} (h₁ : m'.stack.SameButLine m₁.stack) : m₁.stack.pop = m.stack := by
    rw [h₁.below, CallStack.pop, hframes]
    rfl
  have hfault (f : Fault) (m₁ : Machine) {m₂ : Machine} (h₁ : m'.stack.SameButLine m₁.stack)
      (hstore : m'.world.store.Extends m₁.world.store) (hm₂ : m₂.stack = m₁.stack.pop)
      (hw : m₂.world = m₁.world) :
      m.LeavesSteady (α := β) (.error (.fault f) { m₂ with module := m.module }) := by
    refine ⟨⟨hm₂.trans (hpop h₁), rfl, rfl, ?_⟩, fun he => ?_⟩
    · show m.world.store.Extends m₂.world.store
      rw [hw]
      exact h.store.trans hstore
    · cases he
      trivial
  have hfinal {e : Exit} (he : e.Final) (hne : ∀ f, e ≠ .fault f) (h₁ : m'.Onward m₁) :
      m.LeavesSteady (α := β)
        (.error e { m₁ with stack := m₁.stack.pop, module := m.module }) := by
    have hsteady : m.Steady { m₁ with stack := m₁.stack.pop, module := m.module } :=
      ⟨hpop h₁.stack, rfl, h₁.report.trans h.report, h.store.trans h₁.store⟩
    refine ⟨?_, fun heq => ?_⟩
    · cases e with
      | fault f => exact absurd rfl (hne f)
      | _ => exact hsteady
    · cases heq
      exact he
  cases e with
  | fault f =>
    cases hu
    exact hfault f m₁ hkeeps.stack hkeeps.store rfl rfl
  | returning v => cases hu
  | breaking =>
    cases hu
    exact hfault _ m₁ hkeeps.stack hkeeps.store rfl rfl
  | continuing =>
    cases hu
    exact hfault _ m₁ hkeeps.stack hkeeps.store rfl rfl
  | _ =>
    cases hu
    exact hfinal trivial (fun f heq => by cases heq) hkeeps

lemma Machine.LeavesSteady.keeps {m : Machine} {t : Task} {r : Outcome t.Answer}
    (h : m.LeavesSteady r) : t.Keeps m r := by
  cases t with
  | expr scope e => exact h
  | stmt scope s => exact h.steady.onward
  | walk v => exact h

/-- What comes out of a task because a part exits is what is to be expected of it. -/
lemma Part.keeps {host : Host} {t t' : Task} {m m' m₁ m₂ : Machine} {h : List Query} {u : Reaction}
    {e e' : Exit} (hpart : Part host t m h t' m' u) (hkeeps : t'.Keeps m' (.error e m₁))
    (hu : u e m₁ = some (e', m₂)) : t.Keeps m (.error e' m₂) := by
  have hsteady (hm : m.Steady m') (hk : m'.LeavesSteady (α := t'.Answer) (.error e m₁))
      (hpass : Reaction.pass e m₁ = some (e', m₂)) : t.Keeps m (.error e' m₂) := by
    cases hpass
    exact (hm.leavesSteady hk).keeps
  cases hpart with
  | expr _ hm => exact hsteady hm hkeeps hu
  | name _ _ => exact hsteady (.refl m) hkeeps hu
  | parent _ => exact hsteady (.refl m) hkeeps hu
  | walk _ hm => exact hsteady hm hkeeps hu
  | again ht _ _ hm =>
    subst ht
    cases hu
    exact hm.leaves_exit hkeeps.steady.onward
  | member ht _ hm _ =>
    subst ht
    cases hu
    exact (hm.leaves_exit hkeeps.steady.onward).noting
  | stmt ht _ hm _ _ =>
    subst ht
    unfold Reaction.noting at hu
    split at hu
    · cases hu
      exact (hm.leaves_exit hkeeps).noting
    · cases hu
  | @call f own s m₃ _ _ hm hcalls =>
    have hmodule : { m₂ with module := m₃.module } = m₂ := by
      rw [← hcalls.module, ← Machine.Leaves.module hkeeps, ← Reaction.called_module hu]
    have hleaves := hcalls.activates.leaves (β := Value) hkeeps hu
    rw [hmodule] at hleaves
    exact (hm.leavesSteady hleaves).keeps
  | @text name path scope e₀ s m₃ _ ht _ hm himports =>
    obtain ⟨⟨e₁, m₄⟩, hcalled, heq⟩ := Option.map_eq_some_iff.mp hu
    cases heq
    have hleaves := himports.activates.leaves (β := Value) hkeeps hcalled
    rw [hm.module] at hleaves
    exact (hm.leavesSteady hleaves).keeps

lemma Machine.EndsSteady.leaves {m : Machine} {α : Type} {h : List Query} {r : Outcome α}
    (hr : m.EndsSteady h r) : m.LeavesSteady r := by
  refine ⟨?_, fun he => (hr.2 _ _ he).final⟩
  obtain ⟨hsteady, _⟩ := hr
  cases r with
  | ok a m₁ => exact hsteady
  | error e m₁ =>
    cases e with
    | fault f => exact ⟨hsteady.stack, hsteady.module, rfl, hsteady.store⟩
    | _ => exact hsteady

lemma Task.Ends.keeps {t : Task} {m : Machine} {h : List Query} {r : Outcome t.Answer}
    (hr : t.Ends m h r) : t.Keeps m r := by
  cases t with
  | expr scope e => exact Machine.EndsSteady.leaves (h := h) hr
  | stmt scope s => exact Stmt.Ends.leaves hr
  | walk v => exact Machine.EndsSteady.leaves (h := h) hr

/-! ### Readings -/

namespace Evaluator

variable {host : Host} {parts : Evaluator} {t t' : Task} {m m' : Machine}

/-- What can be read off the plan of a task. -/
lemma Keeping.reading (hparts : parts.Keeping) (host : Host) (rounds : Nat) (t : Task)
    (m : Machine) :
    parts.Reading (fun ps => (ps.deepen (load host) rounds).run t) m (t.manner host m) (t.Ends m) :=
  reading_of_plan hparts (t.plan host rounds m)

lemma exhausted_keeping : exhausted.Keeping := by
  intro t m
  have h {α : Type} : m.LeavesSteady (α := α) (.error .tooDeep m) :=
    ⟨Machine.Steady.refl m, fun he => by
      cases he
      trivial⟩
  cases t with
  | expr scope e => exact h
  | stmt scope s => exact (h (α := Value)).steady.onward
  | walk v => exact h

/-- One level deeper. -/
lemma Keeping.deepen (hparts : parts.Keeping) (host : Host) (rounds : Nat) :
    (parts.deepen (load host) rounds).Keeping := by
  intro t m
  rcases (hparts.reading host rounds t m).ends with
    ⟨h, t', m', u, e, m₁, e', m₂, hpart, _, _, hrun, hu, _, hends⟩ | ⟨h, hr, _⟩
  · rw [hends]
    have hkeeps := hparts t' m'
    rw [hrun] at hkeeps
    exact Part.keeps hpart hkeeps hu
  · exact hr.keeps

/-- **Every evaluator does what is to be expected of it.** -/
theorem ofDepth_keeping (host : Host) (rounds depth : Nat) :
    (ofDepth (load host) rounds depth).Keeping := by
  induction depth with
  | zero => exact exhausted_keeping
  | succ depth ih => exact ih.deepen host rounds

end Evaluator

end Wei
