import Mathlib.Data.List.Basic
import Wei.Proofs.Parts

/-!
How statements go about it.

A statement evaluates expressions first, and then the statements inside of it, each with the frame
on its line. Nothing of its own fails after that, but for the members of a class, which put the
frame on their lines themselves. A loop over a subject binds its targets anew in each round, and if
that can be done once it can be done again. The one expression that is evaluated when statements
have been executed in the same frame is the condition of a loop.
-/

namespace Wei

/-- How a statement comes to an end by itself. If in a fault, the frame is on its line, or on that
of a member of a class, and the fault is recorded there. -/
structure Stmt.Ends (s : Stmt) (m : Machine) (_ : List Query) (r : Outcome Value) : Prop where
  leaves : m.Leaves Machine.Onward r
  fault {f : Fault} {m₁ : Machine} : r = .error (.fault f) m₁ → m.Steady m₁ ∨
    ∃ s' ∈ s.action.members, ∃ m₂, m.Onward m₂ ∧ m₂.stack.On s'.line ∧ m₁ = m₂.recordFault f
  /-- If it has not failed, it is on the way to something that takes the exit. -/
  passing {e : Exit} {m₁ : Machine} : r = .error e m₁ → ¬ e.Failing → m.Steady m₁

lemma Machine.Onward.leaves {m : Machine} {α : Type} {r : Outcome α} (h : m.Onward r.state) :
    m.Leaves Machine.Onward r := by
  cases r with
  | ok a m₁ => exact h
  | error e m₁ =>
    cases e with
    | fault f => exact ⟨h.stack, h.module, rfl, h.store⟩
    | _ => exact h

namespace Stmt.Ends

variable {s : Stmt} {m m₁ : Machine} {h : List Query} {r : Outcome Value}

lemma of_steady (hr : m.EndsSteady h r) : s.Ends m h r where
  leaves := hr.1.onward.leaves
  fault hf := by
    subst hf
    exact .inl hr.1
  passing he hfailing := absurd (hr.2 _ _ he) hfailing

lemma of_ok {v : Value} (hm : m.Onward m₁) : s.Ends m h (.ok v m₁) where
  leaves := hm
  fault hf := by cases hf
  passing he := by cases he

lemma plan {M : Manner} (hm : m.Onward m₁) (v : Value) :
    M.Plan (s.Ends m) h m₁.stock fun _ => .ok v m₁ :=
  .answer (r := .ok v m₁) (of_ok hm)

/-- It has ended on the way to something that takes the exit. -/
lemma of_passing {e : Exit} (hm : m.Steady m₁) (he : ∀ f, e ≠ .fault f) :
    s.Ends m h (.error e m₁) where
  leaves := Machine.Onward.leaves hm.onward
  fault hf := by
    cases hf
    exact absurd rfl (he _)
  passing hr _ := by
    cases hr
    exact hm

/-- It has ended because something cannot go on. -/
lemma of_failing {e : Exit} (hm : m.Onward m₁) (hfailing : e.Failing) (he : ∀ f, e ≠ .fault f) :
    s.Ends m h (.error e m₁) where
  leaves := Machine.Onward.leaves hm
  fault hf := by
    cases hf
    exact absurd rfl (he _)
  passing hr hne := by
    cases hr
    exact absurd hfailing hne

end Stmt.Ends

/-! ### Rounds -/

namespace Manner.Plan

variable {M : Manner} {I : List Query → Machine → Prop} {Q : List Query → Outcome Bool → Prop}
  {S : List Query → Outcome Unit → Prop} {h : List Query} {m : Machine}

lemma repeating {x : Evaluator → Eval Bool}
    (hround : ∀ h m, I h m → M.Plan Q h m.stock fun ev => x ev m)
    (hgoes : ∀ h m, Q h (.ok true m) → I h m) (hstops : ∀ h m, Q h (.ok false m) → S h (.ok () m))
    (hexits : ∀ h e m, Q h (.error e m) → S h (.error e m))
    (hlong : ∀ h m, I h m → S h (.error .unfinished m)) (rounds : Nat) (hm : I h m) :
    M.Plan S h m.stock fun ev => Eval.repeating (x ev) rounds m := by
  induction rounds generalizing h m with
  | zero => exact .answer (r := .error .unfinished m) (hlong h m hm)
  | succ rounds ih =>
    refine (hround h m hm).bind (fun h' go m₁ hr => ?_) hexits
    cases go with
    | true => exact ih (hgoes h' m₁ hr)
    | false => exact .answer (r := .ok () m₁) (hstops h' m₁ hr)

lemma walking {f : Evaluator → Value × Value → Eval Bool}
    (hbody : ∀ step h m, I h m → M.Plan Q h m.stock fun ev => f ev step m)
    (hgoes : ∀ h m, Q h (.ok true m) → I h m) (hstops : ∀ h m, Q h (.ok false m) → S h (.ok () m))
    (hexits : ∀ h e m, Q h (.error e m) → S h (.error e m))
    (hlong : ∀ h m, I h m → S h (.error .unfinished m)) (hends : ∀ h m, I h m → S h (.ok () m))
    (rounds : Nat) (walk : Iteration) (hm : I h m) :
    M.Plan S h m.stock fun ev => Eval.walking (f ev) rounds walk m := by
  induction rounds generalizing h m walk with
  | zero => exact .answer (r := .error .unfinished m) (hlong h m hm)
  | succ rounds ih =>
    refine .own_bind (x := Eval.store) (fun s m₁ hs => ⟨?_, ?_⟩) fun e m₁ he => by cases he
    all_goals cases hs
    · rfl
    cases walk.next? m.world.store with
    | none => exact .answer (r := .ok () m) (hends h m hm)
    | some next =>
      refine (hbody next.1 h m hm).bind (fun h' go m₁ hr => ?_) hexits
      cases go with
      | true => exact ih next.2 (hgoes h' m₁ hr)
      | false => exact .answer (r := .ok () m₁) (hstops h' m₁ hr)

end Manner.Plan

lemma Stmt.plainIn {t : Task} {scope : Ref .scope} {s : Stmt} (ht : t = .stmt scope s)
    (hplain : t.isMixed = false) : t.PlainIn scope := by
  subst ht
  exact ⟨hplain, rfl⟩

/-! ### Statements inside of a statement -/

section Inner

variable {host : Host} {t : Task} {scope own : Ref .scope} {s₀ : Stmt} {m₀ m : Machine}
  {body : List Stmt} {h : List Query}

/-- What is asked for in a block inside of a statement. -/
lemma Part.of_reciting (host : Host) (ht : t = .stmt scope s₀)
    (hbody : ∀ s ∈ body, s ∈ s₀.action.inner) (hm : m₀.Onward m)
    (henters : m.world.store.Enters m₀.world.store.scopes.size own scope) {t' : Task}
    {m' : Machine} {u : Reaction}
    (hasks : (Manner.reciting (m.nesting own) ⟨m.world.store.scopes.size⟩ body).Asks h t' m' u) :
    Part host t m₀ h t' m' (.noting s₀.action.lets) ∧ u = (.noting fun _ => true) ∧
      ∃ s ∈ body, t' = .stmt ⟨m.world.store.scopes.size⟩ s ∧ m₀.Onward m' := by
  obtain ⟨⟨s, hs, rfl, honward, hline⟩, rfl⟩ := hasks
  have hnest := m.steady_nesting own
  have hm' : m₀.Onward m' := hm.trans (hnest.onward.trans honward)
  refine ⟨.stmt ht (hbody s hs) hm' hline ?_, rfl, s, hs, rfl, hm'⟩
  exact honward.store.enters
    (.head hm.store.scopes (m.around_nesting own) (hnest.store.enters henters))

/-- A block that is no body of a loop. -/
lemma Stmt.block_plan (ht : t = .stmt scope s₀) (hbody : ∀ s ∈ body, s ∈ s₀.action.inner)
    (hloop : s₀.action.isLoop = false) (hm : m₀.Onward m) :
    (t.manner host m₀).Plan (s₀.Ends m₀) h m.stock fun ev => ev.block scope body m := by
  have hlets : s₀.action.lets = fun _ => true := by
    funext e
    simp [Action.lets, hloop]
  refine ((Manner.Plan.block m scope body).mono (fun h t' m' u hasks => ?_)
    fun _ _ _ h => h.elim).imp ?_
  · obtain ⟨hpart, rfl, _⟩ := Part.of_reciting host ht hbody hm .refl hasks
    rw [hlets] at hpart
    exact hpart
  · rintro h r ⟨⟨v, m₁, rfl⟩, honward, _, _⟩
    exact .of_ok (hm.trans ((m.steady_nesting scope).onward.trans honward))

/-- The body of a loop has been executed once. -/
structure Machine.EndsRound (m₀ m : Machine) (body : List Stmt) (h : List Query)
    (r : Outcome Bool) : Prop where
  answers : ∃ go m₁, r = .ok go m₁
  onward : m₀.Onward r.state
  still : body = [] → m.Steady r.state
  passed : body ≠ [] → ∃ s ∈ body, ∃ own m₁, Asked h (.stmt own s) m₁

lemma Stmt.round_plan (ht : t = .stmt scope s₀) (hbody : ∀ s ∈ body, s ∈ s₀.action.inner)
    (hloop : s₀.action.isLoop = true) (hm : m₀.Onward m)
    (henters : m.world.store.Enters m₀.world.store.scopes.size own scope) :
    (t.manner host m₀).Plan (m₀.EndsRound m body) h m.stock fun ev =>
      Eval.loopRound (ev.block own body) m := by
  have hnest := m.steady_nesting own
  have hlets (e : Exit) : s₀.action.lets e = !e.isStray := by simp [Action.lets, hloop]
  refine (Manner.Plan.block m own body).around (g := fun r => Eval.loopRound (fun _ => r) m)
    (fun _ _ _ h => h.elim) ?_ ?_
  · intro h t' m' u hasks
    obtain ⟨hpart, rfl, s, hs, rfl, hm'⟩ := Part.of_reciting host ht hbody hm henters hasks
    refine ⟨_, hpart, Reaction.noting_fair fun e he => ?_, ?_, ?_⟩
    · rw [hlets]
      cases e with
      | breaking => exact he.elim
      | continuing => exact he.elim
      | _ => rfl
    · intro e m₁ e' m₂ hu
      refine ⟨e, m₁.noting e, rfl, ?_⟩
      unfold Reaction.noting at hu
      rw [hlets] at hu
      cases e <;> cases hu <;> rfl
    · -- the loop takes the exit
      intro e m₁ e₁ m₃ hkeeps hnone hu
      cases hu
      have hpassed : body ≠ [] → ∃ s' ∈ body, ∃ own' m₂,
          Asked (⟨.stmt ⟨m.world.store.scopes.size⟩ s, m', .error e m₁⟩ :: h) (.stmt own' s') m₂ :=
        fun _ => ⟨s, hs, _, m', _, List.mem_cons_self⟩
      have hstill {P : Prop} (hnil : body = []) : P := by
        rw [hnil] at hs
        cases hs
      unfold Reaction.noting at hnone
      rw [hlets] at hnone
      cases e with
      | breaking => exact ⟨⟨⟨false, m₁, rfl⟩, hm'.trans hkeeps, hstill, hpassed⟩, rfl⟩
      | continuing => exact ⟨⟨⟨true, m₁, rfl⟩, hm'.trans hkeeps, hstill, hpassed⟩, rfl⟩
      | _ => cases hnone
  · rintro h r ⟨⟨v, m₁, rfl⟩, honward, hstill, hpassed⟩
    refine ⟨⟨⟨true, m₁, rfl⟩, hm.trans (hnest.onward.trans honward), fun hnil => ?_, fun hne => ?_⟩,
      rfl⟩
    · exact hnest.trans (hstill hnil)
    · obtain ⟨s, hs, m', hmem⟩ := hpassed hne
      exact ⟨s, hs, _, m', hmem⟩

end Inner

/-! ### Branches -/

section Branches

variable {host : Host} {t : Task} {scope : Ref .scope} {s₀ : Stmt} {m₀ m : Machine} {h : List Query}

lemma Stmt.branches_plan (ht : t = .stmt scope s₀) {bs : List (Expr × List Stmt)}
    {otherwise : Option (List Stmt)} (hbs : ∀ b ∈ bs, ∀ s ∈ b.2, s ∈ s₀.action.inner)
    (hotherwise : ∀ s ∈ otherwise.getD [], s ∈ s₀.action.inner)
    (hloop : s₀.action.isLoop = false) (hplain : t.isMixed = false) (hm : m₀.Steady m) :
    (t.manner host m₀).Plan (s₀.Ends m₀) h m.stock fun ev => ev.branches scope otherwise bs m := by
  induction bs generalizing h m with
  | nil =>
    cases otherwise with
    | none => exact Stmt.Ends.plan hm.onward .null
    | some body => exact Stmt.block_plan ht hotherwise hloop hm.onward
  | cons b rest ih =>
    obtain ⟨hb, hrest⟩ := List.forall_mem_cons.mp hbs
    refine (Task.Steadily.expr (Stmt.plainIn ht hplain) b.1 h m hm).bind (fun h' v m₁ hr => ?_)
      fun h' e m₁ hr => .of_steady hr
    show (t.manner host m₀).Plan (s₀.Ends m₀) h' m₁.stock fun ev =>
      (if m₁.world.store.truth v then ev.block scope b.2 else ev.branches scope otherwise rest) m₁
    split
    · exact Stmt.block_plan ht hb hloop hr.1.onward
    · exact ih hrest hr.1

end Branches

/-! ### Loops -/

section While

variable {host : Host} {t : Task} {scope : Ref .scope} {line : Int} {condition : Expr}
  {body : List Stmt} {m₀ m : Machine} {h : List Query}

/-- Between the rounds of a loop: the frame is still on its line, or statements of the body have
been executed. -/
def Machine.BetweenRounds (m₀ : Machine) (body : List Stmt) (h : List Query) (m : Machine) : Prop :=
  m₀.Steady m ∨ m₀.Onward m ∧ ∃ s ∈ body, ∃ own m₁, Asked h (.stmt own s) m₁

lemma Machine.BetweenRounds.onward (hm : m₀.BetweenRounds body h m) : m₀.Onward m :=
  hm.elim Machine.Steady.onward And.left

/-- A round of a loop with a condition has come to an end. -/
def Machine.EndsWhileRound (m₀ : Machine) (body : List Stmt) (h : List Query) (r : Outcome Bool) :
    Prop :=
  (∃ go m₁, r = .ok go m₁) ∧ m₀.Onward r.state ∧ ∀ m₁, r = .ok true m₁ → m₀.BetweenRounds body h m₁

lemma Stmt.condition_plan (ht : t = .stmt scope (.mk line (.loop condition body)))
    (hm : m₀.BetweenRounds body h m) :
    (t.manner host m₀).Plan (fun _ r => ∃ v m₁, r = .ok v m₁ ∧ m.Steady m₁) h m.stock fun ev =>
      ev.expr scope condition m := by
  have hasks : Part host t m₀ h (.expr scope condition) m .pass := by
    rcases hm with hm | ⟨hm, s, hs, own, m₁, hmem⟩
    · exact .expr (Stmt.plainIn ht (by rw [ht]; rfl)) hm
    · exact .again ht hs hmem hm
  refine (Manner.Plan.pass (t := .expr scope condition) hasks).imp ?_
  rintro h r ⟨⟨v, m₁, rfl⟩, hkeeps, _⟩
  exact ⟨v, m₁, rfl, hkeeps.steady⟩

lemma Stmt.whileRound_plan (ht : t = .stmt scope (.mk line (.loop condition body)))
    (hm : m₀.BetweenRounds body h m) :
    (t.manner host m₀).Plan (m₀.EndsWhileRound body) h m.stock fun ev =>
      ev.whileRound scope condition body m := by
  refine (condition_plan ht hm).bind (fun h' v m₁ hr => ?_) fun h' e m₁ hr => ?_
  · obtain ⟨_, _, heq, hm₁⟩ := hr
    cases heq
    have honward := hm.onward.trans hm₁.onward
    show (t.manner host m₀).Plan (m₀.EndsWhileRound body) h' m₁.stock fun ev =>
      (if m₁.world.store.truth v then Eval.loopRound (ev.block scope body) else pure false) m₁
    split
    · refine (Stmt.round_plan ht (fun _ hs => hs) rfl honward .refl).imp fun h r hr => ?_
      refine ⟨hr.answers, hr.onward, fun m₂ heq => ?_⟩
      subst heq
      by_cases hnil : body = []
      · -- without a body the frame stays on the line of the loop
        rcases hm with hm | ⟨_, s, hs, _⟩
        · exact .inl (hm.trans (hm₁.trans (hr.still hnil)))
        · exact absurd (hnil ▸ hs) List.not_mem_nil
      · exact .inr ⟨hr.onward, hr.passed hnil⟩
    · exact .answer (r := .ok false m₁) ⟨⟨false, m₁, rfl⟩, honward, fun m₂ heq => by cases heq⟩
  · obtain ⟨_, _, heq, _⟩ := hr
    cases heq

lemma Stmt.while_plan (ht : t = .stmt scope (.mk line (.loop condition body))) (rounds : Nat)
    (hm : m₀.Steady m) :
    (t.manner host m₀).Plan ((Stmt.mk line (.loop condition body)).Ends m₀) h m.stock fun ev =>
      (do
        Eval.repeating (ev.whileRound scope condition body) rounds
        pure .null : Eval Value) m := by
  have hloop := Manner.Plan.repeating (M := t.manner host m₀) (h := h) (m := m)
    (I := m₀.BetweenRounds body) (S := fun _ r => m₀.Onward r.state ∧ ∀ e m₁, r = .error e m₁ →
      e = .unfinished) (x := fun ev => ev.whileRound scope condition body)
    (fun h m hm => Stmt.whileRound_plan ht hm) (fun h m hr => hr.2.2 m rfl)
    (fun h m hr => ⟨hr.2.1, fun e m₁ heq => by cases heq⟩)
    (fun h e m hr => by
      obtain ⟨⟨_, _, heq⟩, _⟩ := hr
      cases heq)
    (fun h m hm => ⟨hm.onward, fun e m₁ heq => by
      cases heq
      rfl⟩) rounds (.inl hm)
  refine hloop.bind (fun h' _ m₁ hr => Stmt.Ends.plan hr.1 .null) ?_
  intro h' e m₁ hr
  obtain rfl := hr.2 e m₁ rfl
  exact .of_failing hr.1 trivial fun f heq => by cases heq

end While

section Each

variable {host : Host} {t : Task} {scope : Ref .scope} {line : Int} {targets : List String}
  {subject : Expr} {body : List Stmt} {constant : Bool} {m₀ m : Machine} {h : List Query}

/-- Two names can be bound in a scope that binds none exactly if they are different. -/
lemma StoreM.declareAll_pair {s : Store} {r : Ref .scope} (hr : (s.scope r).bindings = .empty)
    (constant : Bool) (x y : String) (v w : Value) :
    (x = y ∧ ∃ f s', declareAll r constant [(x, v), (y, w)] s = .error f s') ∨
      x ≠ y ∧ declareAll r constant [(x, v), (y, w)] s =
        .ok () ((s.writeBinding r x ⟨v, constant⟩).writeBinding r y ⟨w, constant⟩) := by
  have hfirst : declare r x v constant s = .ok () (s.writeBinding r x ⟨v, constant⟩) := by
    unfold declare Store.holds
    rw [hr]
    rfl
  have hholds : (s.writeBinding r x ⟨v, constant⟩).holds r y = decide (x = y) := by
    unfold Store.holds Store.writeBinding
    rw [Store.scope_setScope, if_pos rfl, hr, OrderedMap.contains, OrderedMap.find?_insert]
    by_cases hxy : x = y <;> simp [hxy, OrderedMap.find?_empty]
  have hsecond : declareAll r constant [(x, v), (y, w)] s =
      (declare r y w constant >>= fun _ => pure ()) (s.writeBinding r x ⟨v, constant⟩) :=
    EStateM.bind_of_ok hfirst
  by_cases hxy : x = y
  · have hdeclare : declare r y w constant (s.writeBinding r x ⟨v, constant⟩) =
        .error (.redeclaredVariable y) (s.writeBinding r x ⟨v, constant⟩) :=
      if_pos (hholds.trans (decide_eq_true hxy))
    exact .inl ⟨hxy, _, _, hsecond.trans (EStateM.bind_of_error hdeclare)⟩
  · have hdeclare : declare r y w constant (s.writeBinding r x ⟨v, constant⟩) =
        .ok () ((s.writeBinding r x ⟨v, constant⟩).writeBinding r y ⟨w, constant⟩) := by
      refine if_neg fun h => hxy ?_
      exact of_decide_eq_true (hholds.symm.trans h)
    exact .inr ⟨hxy, hsecond.trans (EStateM.bind_of_ok hdeclare)⟩

/-- Between the rounds of a loop over a subject: nothing has been executed yet, or it is known that
the targets can be bound. -/
def Machine.BetweenSteps (m₀ : Machine) (targets : List String) (m : Machine) : Prop :=
  m₀.Steady m ∨ m₀.Onward m ∧ ∃ x y, targets = [x, y] ∧ x ≠ y

lemma Machine.BetweenSteps.onward (hm : m₀.BetweenSteps targets m) : m₀.Onward m :=
  hm.elim Machine.Steady.onward And.left

/-- A round of a loop over a subject has come to an end. -/
def Machine.EndsStep (m₀ : Machine) (targets : List String) (_ : List Query) (r : Outcome Bool) :
    Prop :=
  (∃ go m₁, r = .ok go m₁ ∧ m₀.BetweenSteps targets m₁) ∨
    ∃ f m₁, r = .error (.fault f) m₁ ∧ m₀.Steady m₁

lemma Stmt.eachRound_plan
    (ht : t = .stmt scope (.mk line (.each targets subject body constant)))
    (hm : m₀.BetweenSteps targets m) (step : Value × Value) :
    (t.manner host m₀).Plan (m₀.EndsStep targets) h m.stock fun ev =>
      ev.eachRound scope targets body constant step m := by
  unfold Evaluator.eachRound
  split
  · next hlength =>
    refine .answer (r := .error _ m) (.inr ⟨_, m, rfl, ?_⟩)
    rcases hm with hm | ⟨_, x, y, rfl, _⟩
    · exact hm
    · exact absurd rfl hlength
  · next hlength =>
    obtain ⟨x, y, rfl⟩ := List.length_eq_two.mp (Decidable.not_not.mp hlength)
    let own : Ref .scope := ⟨m.world.store.scopes.size⟩
    have hnest := m.steady_nesting scope
    have hempty : ((m.nesting scope).world.store.scope own).bindings = .empty :=
      congrArg Scope.bindings (Arena.get_push_size ..)
    have hbind := Eval.Apart.onStore
      (StoreM.declareAll_sameCode own constant [(x, step.1), (y, step.2)])
    have hsteady := hbind.steady (m.nesting scope)
    have hstock := hbind.stock (m.nesting scope)
    show (t.manner host m₀).Plan (m₀.EndsStep [x, y]) h (m.nesting scope).stock fun ev =>
      (Eval.onStore (StoreM.declareAll own constant [(x, step.1), (y, step.2)]) >>= fun _ =>
        Eval.loopRound (ev.block own body)) (m.nesting scope)
    rcases StoreM.declareAll_pair hempty constant x y step.1 step.2 with
      ⟨hxy, f, s, hs⟩ | ⟨hxy, hs⟩
    all_goals
      refine .own_bind (fun a m₁ hok => ?_) fun e m₁ herror => ?_
    · rw [Eval.onStore_eq, hs] at hok
      cases hok
    · -- the names are the same, so this is the first round
      rw [herror] at hsteady hstock
      rw [Eval.onStore_eq, hs] at herror
      cases herror
      refine ⟨hstock, .inr ⟨f, _, rfl, ?_⟩⟩
      rcases hm with hm | ⟨_, x', y', heq, hne⟩
      · exact hm.trans (hnest.trans hsteady)
      · cases heq
        exact absurd hxy hne
    · rw [hok] at hsteady hstock
      have hm₁ := hnest.trans hsteady
      refine ⟨hstock, (Stmt.round_plan ht (fun _ hs => hs) rfl (hm.onward.trans hm₁.onward)
        (.single hm.onward.store.scopes (hsteady.store.around (m.around_nesting scope)))).imp
          fun h r hr => ?_⟩
      obtain ⟨go, m₂, rfl⟩ := hr.answers
      exact .inl ⟨go, m₂, rfl, .inr ⟨hr.onward, x, y, rfl, hxy⟩⟩
    · rw [Eval.onStore_eq, hs] at herror
      cases herror

lemma Stmt.each_plan (ht : t = .stmt scope (.mk line (.each targets subject body constant)))
    (rounds : Nat) (walk : Iteration) (hm : m₀.Steady m) :
    (t.manner host m₀).Plan ((Stmt.mk line (.each targets subject body constant)).Ends m₀) h
      m.stock fun ev => (do
        Eval.walking (ev.eachRound scope targets body constant) rounds walk
        pure .null : Eval Value) m := by
  have hloop := Manner.Plan.walking (M := t.manner host m₀) (h := h) (m := m)
    (I := fun _ => m₀.BetweenSteps targets) (Q := m₀.EndsStep targets)
    (S := fun _ r => (∃ m₁, r = .ok () m₁ ∧ m₀.Onward m₁) ∨
      (∃ m₁, r = .error .unfinished m₁ ∧ m₀.Onward m₁) ∨
      ∃ f m₁, r = .error (.fault f) m₁ ∧ m₀.Steady m₁)
    (f := fun ev => ev.eachRound scope targets body constant)
    (fun step h m hm => Stmt.eachRound_plan ht hm step) ?_ ?_ ?_
    (fun h m hm => .inr (.inl ⟨m, rfl, hm.onward⟩)) (fun h m hm => .inl ⟨m, rfl, hm.onward⟩)
    rounds walk (.inl hm)
  · refine hloop.bind (fun h' _ m₁ hr => ?_) fun h' e m₁ hr => ?_
    · rcases hr with ⟨_, heq, honward⟩ | ⟨_, heq, _⟩ | ⟨_, _, heq, _⟩
      · cases heq
        exact Stmt.Ends.plan honward .null
      · cases heq
      · cases heq
    · rcases hr with ⟨_, heq, _⟩ | ⟨_, heq, honward⟩ | ⟨f, _, heq, hsteady⟩
      · cases heq
      · cases heq
        exact .of_failing honward trivial fun f heq => by cases heq
      · cases heq
        exact .of_steady ⟨hsteady, fun e m₂ he => by cases he; trivial⟩
  · rintro h m (⟨_, _, heq, hm⟩ | ⟨_, _, heq, _⟩)
    · cases heq
      exact hm
    · cases heq
  · rintro h m (⟨_, _, heq, hm⟩ | ⟨_, _, heq, _⟩)
    · cases heq
      exact .inl ⟨m, rfl, hm.onward⟩
    · cases heq
  · rintro h e m (⟨_, _, heq, _⟩ | ⟨f, _, heq, hm⟩)
    · cases heq
    · cases heq
      exact .inr (.inr ⟨f, m, rfl, hm⟩)

end Each

/-! ### Definitions of classes -/

section Classes

variable {host : Host} {t : Task} {scope : Ref .scope} {s₀ : Stmt} {cls : Ref .cls}
  {m₀ m : Machine} {h : List Query}

/-- Only values are asked for, as parts of one member. -/
def Manner.valuing (M : Manner) (b : Machine) (scope : Ref .scope) : Manner where
  Asks _ t m u := (∃ e, t = .expr scope e) ∧ b.Steady m ∧ u = .pass
  Alters := M.Alters

lemma Stmt.declareMember_plan (ht : t = .stmt scope s₀) (hm : m₀.Onward m) {a : Action}
    (hliteral : ∀ f classLevel, a = .method f classLevel → f ∈ t.literals) :
    ((t.manner host m₀).valuing m scope).Plan m.EndsSteady h m.stock fun ev =>
      ev.declareMember scope cls a m := by
  have ends {h : List Query} {x : Eval Value} (hx : x.Apart) {m₁ : Machine} (hm₁ : m.Steady m₁) :
      ((t.manner host m₀).valuing m scope).Plan m.EndsSteady h m₁.stock fun _ => x m₁ := by
    rw [← hx.stock m₁]
    exact .answer ⟨hm₁.trans (hx.steady m₁), fun e m₂ he => hx.failing he⟩
  cases a with
  | member x value constant classLevel =>
    -- the member is added when its value is there
    have hadd (v : Option Value) {h : List Query} {m₁ : Machine} (hm₁ : m.Steady m₁) :
        ((t.manner host m₀).valuing m scope).Plan m.EndsSteady h m₁.stock fun _ => (do
          if classLevel then Eval.onStore (StoreM.addClassMember cls x (v.getD .null) constant)
          else Eval.onStore (StoreM.addMember cls x v constant)
          pure .null : Eval Value) m₁ := by
      cases classLevel with
      | true =>
        have hadd := StoreM.addClassMember_sameCode cls x (v.getD .null) constant
        exact ends (.bind (.onStore hadd) fun _ => .pure _) hm₁
      | false =>
        have hadd := StoreM.addMember_sameCode cls x v constant
        exact ends (.bind (.onStore hadd) fun _ => .pure _) hm₁
    cases value with
    | none => exact hadd none (.refl m)
    | some e =>
      have hasks : ((t.manner host m₀).valuing m scope).Asks h (.expr scope e) m .pass :=
        ⟨⟨e, rfl⟩, .refl m, rfl⟩
      have hvalue : ((t.manner host m₀).valuing m scope).Plan
          (fun _ r => ∃ v m₁, r = .ok (some v) m₁ ∧ m.Steady m₁) h m.stock fun ev =>
          ev.expr? scope (some e) m := by
        refine (Manner.Plan.pass hasks).bind (fun h' v m₁ hr => ?_) fun h' e m₁ hr => ?_
        · exact .answer (r := .ok (some v) m₁) ⟨v, m₁, rfl, hr.2.1.steady⟩
        · obtain ⟨⟨_, _, heq⟩, _⟩ := hr
          cases heq
      refine hvalue.bind (fun h' v m₁ hr => ?_) fun h' e m₁ hr => ?_
      · obtain ⟨_, _, heq, hm₁⟩ := hr
        cases heq
        exact hadd _ hm₁
      · obtain ⟨_, _, heq, _⟩ := hr
        cases heq
  | method f classLevel =>
    refine (Manner.Plan.closure (Alteration.function (some cls) (hliteral f classLevel rfl)
      (by rw [ht]; rfl) hm)).bind (fun h' r m₁ hr => ?_) fun h' e m₁ hr => ?_
    · obtain ⟨_, _, heq, hm₁⟩ := hr
      cases heq
      cases classLevel with
      | true =>
        have hadd := StoreM.addClassMethod_sameCode cls (f.name.getD "") r
        exact ends (.bind (.onStore hadd) fun _ => .pure _) hm₁
      | false =>
        have hadd := StoreM.addMethod_sameCode cls (f.name.getD "") r
        exact ends (.bind (.onStore hadd) fun _ => .pure _) hm₁
    · obtain ⟨_, _, heq, _⟩ := hr
      cases heq
  | _ =>
    have hcrash : (Exit.crash .misplacedStatement).Failing := trivial
    exact ends (.throw hcrash) (.refl m)

/-- A member has been declared, or the fault of that has been recorded. -/
def Machine.EndsMember (m : Machine) (_ : List Query) (r : Outcome Value) : Prop :=
  ∃ m₁, m.Steady m₁ ∧ ((∃ v, r = .ok v m₁) ∨ ∃ e, e.Failing ∧ r = .error e (m₁.noting e))

lemma Stmt.member_plan (ht : t = .stmt scope s₀) (hm : m₀.Onward m) {s : Stmt}
    (hs : s ∈ s₀.action.members) (hline : m.stack.On s.line) :
    (t.manner host m₀).Plan m.EndsMember h m.stock fun ev =>
      Eval.recording (ev.declareMember scope cls s.action) m := by
  have hliteral (f : FunctionLiteral) (classLevel : Bool) (hf : s.action = .method f classLevel) :
      f ∈ t.literals := ht ▸ Action.mem_literals hs hf
  refine (Stmt.declareMember_plan ht hm hliteral).around
    (g := fun r => Eval.recording (fun _ => r) m) (fun _ _ _ h => h) ?_ ?_
  · rintro h _ m₁ _ ⟨⟨e, rfl⟩, hm₁, rfl⟩
    have hon : m₁.stack.On s.line := hm₁.stack ▸ hline
    refine ⟨.noting fun _ => true, .member ht hs (hm.trans hm₁.onward) hon,
      Reaction.noting_fair fun _ _ => rfl, ?_, ?_⟩
    · intro e m₂ e' m₃ hu
      refine ⟨e, m₂, rfl, ?_⟩
      cases hu
      cases e <;> rfl
    · intro e m₂ e₁ m₃ _ hnone
      cases hnone
  · rintro h r ⟨hr, hfailing⟩
    cases r with
    | ok v m₁ => exact ⟨⟨m₁, hr, .inl ⟨v, rfl⟩⟩, rfl⟩
    | error e m₁ =>
      refine ⟨⟨m₁, hr, .inr ⟨e, hfailing e m₁ rfl, ?_⟩⟩, ?_⟩
      all_goals cases e <;> rfl

lemma Stmt.classBody_plan (ht : t = .stmt scope s₀) {rest : List Stmt}
    (hrest : ∀ s ∈ rest, s ∈ s₀.action.members) (hm : m₀.Onward m) :
    (t.manner host m₀).Plan (s₀.Ends m₀) h m.stock fun ev => ev.classBody scope cls rest m := by
  induction rest generalizing h m with
  | nil => exact Stmt.Ends.plan hm .null
  | cons s rest ih =>
    obtain ⟨hs, hrest⟩ := List.forall_mem_cons.mp hrest
    have hm' := hm.trans (m.onward_atLine s.line)
    rw [← m.stock_atLine s.line]
    refine (Stmt.member_plan ht hm' hs (m.on_atLine s.line)).bind (fun h' v m₁ hr => ?_)
      fun h' e m₁ hr => ?_
    · rcases hr with ⟨_, hm₁, ⟨_, heq⟩ | ⟨_, _, heq⟩⟩
      · cases heq
        exact ih hrest (hm'.trans hm₁.onward)
      · cases heq
    · rcases hr with ⟨_, _, ⟨_, heq⟩ | _⟩
      · cases heq
      next m₂ hm₂ hr =>
      obtain ⟨e', hfailing, heq⟩ := hr
      cases heq
      have honward := hm'.trans hm₂.onward
      cases e with
      | fault f =>
        refine ⟨⟨honward.stack, honward.module, rfl, honward.store⟩, fun hf => ?_, fun he hne => ?_⟩
        · cases hf
          exact .inr ⟨s, hs, m₂, honward, hm₂.stack ▸ m.on_atLine s.line, rfl⟩
        · cases he
          exact absurd trivial hne
      | _ => exact .of_failing honward hfailing fun f heq => by cases heq

lemma Stmt.parentClass_plan {line : Int} {x : String} {parent : Option Expr} {body : List Stmt}
    (ht : t = .stmt scope (.mk line (.classDef x parent body))) :
    (t.manner host m₀).Plan m₀.EndsSteady h m₀.stock fun ev =>
      ev.parentClass scope x parent m₀ := by
  cases parent with
  | none => exact Task.Steadily.own (.pure _) h m₀ (.refl m₀)
  | some e =>
    refine (Manner.Plan.pass (t := .expr scope e) (Part.parent ht)).bind (fun h' v m₁ hr => ?_)
      fun h' e m₁ hr => ?_
    · have hm₁ : m₀.Steady m₁ := hr.2.1.steady
      cases v with
      | cls r => exact Task.Steadily.own (.pure r) h' m₁ hm₁
      | _ => exact Task.Steadily.ownThen .store (fun s => .own (.fault _)) h' m₁ hm₁
    · obtain ⟨⟨_, _, heq⟩, _⟩ := hr
      cases heq

lemma Stmt.defineClass_plan {line : Int} {x : String} {parent : Option Expr} {body : List Stmt}
    (ht : t = .stmt scope (.mk line (.classDef x parent body))) :
    (t.manner host m₀).Plan ((Stmt.mk line (.classDef x parent body)).Ends m₀) h m₀.stock fun ev =>
      ev.defineClass scope x parent body m₀ := by
  have hclass (above : Ref .cls) :
      (Eval.onStore (StoreM.newClass (Class.blank x (some above)))).Apart :=
    .onStore (StoreM.newClass_sameCode _)
  have hdeclare (cls : Ref .cls) : (Eval.onStore (StoreM.declare scope x (.cls cls) true)).Apart :=
    .onStore (StoreM.declare_sameCode scope x (.cls cls) true)
  refine (Stmt.parentClass_plan ht).bind (fun h₁ above m₁ hr₁ => ?_)
    fun _ _ _ hr => .of_steady hr.exit
  refine (Task.Steadily.own (hclass above) h₁ m₁ hr₁.1).bind (fun h₂ cls m₂ hr₂ => ?_)
    fun _ _ _ hr => .of_steady hr.exit
  refine (Task.Steadily.own (hdeclare cls) h₂ m₂ hr₂.1).bind (fun h₃ _ m₃ hr₃ => ?_)
    fun _ _ _ hr => .of_steady hr.exit
  exact Stmt.classBody_plan ht (fun _ hs => hs) hr₃.1.onward

end Classes

/-! ### All statements -/

/-- How a task comes to an end by itself. -/
def Task.Ends : (t : Task) → Machine → List Query → Outcome t.Answer → Prop
  | .expr _ _, m => m.EndsSteady
  | .stmt _ s, m => s.Ends m
  | .walk _, m => m.EndsSteady

/-- **How statements go about it.** -/
theorem Stmt.plan (host : Host) (rounds : Nat) (scope : Ref .scope) (s : Stmt) (m : Machine)
    (h : List Query) :
    ((Task.stmt scope s).manner host m).Plan (s.Ends m) h m.stock fun ev =>
      ev.evalAction rounds scope s.action m := by
  obtain ⟨line, a⟩ := s
  have steady {x : Evaluator → Eval Value}
      (hx : (Task.stmt scope (.mk line a)).Steadily host m x) :
      ((Task.stmt scope (.mk line a)).manner host m).Plan ((Stmt.mk line a).Ends m) h m.stock
        fun ev => x ev m :=
    (hx h m (.refl m)).imp fun _ _ => .of_steady
  cases a with
  | block body => exact Stmt.block_plan rfl (fun _ hs => hs) rfl (.refl m)
  | declare x value constant =>
    refine steady (.bind (.expr? ⟨rfl, rfl⟩ value) fun v => .own ?_)
    exact .bind (.onStore (StoreM.declare_sameCode scope x (v.getD .null) constant))
      fun _ => .pure _
  | assign target value =>
    refine steady (.bind (.expr ⟨rfl, rfl⟩ value) fun v => .bind ?_ fun _ => .own (.pure _))
    cases target with
    | name x => exact .own (.onStore (StoreM.assign_sameCode scope x v))
    | item subject index =>
      refine .bind (.expr ⟨rfl, rfl⟩ subject) fun w => .bind (.expr ⟨rfl, rfl⟩ index) fun i => ?_
      refine .own (.bind (.orCrash _) fun _ => ?_)
      exact .onContents (StoreM.setItem_sameButContents w i v)
    | attr subject x =>
      refine .bind (.expr ⟨rfl, rfl⟩ subject) fun w => ?_
      exact .own (.onStore (StoreM.setAttribute_sameCode w x v))
    | loop subject => exact .bind (.expr ⟨rfl, rfl⟩ subject) fun _ => .own (.fault _)
    | invalid => exact .own (.throw trivial)
  | eval e => exact steady (.expr ⟨rfl, rfl⟩ e)
  | ret value =>
    refine (Task.Steadily.expr? ⟨rfl, rfl⟩ value h m (.refl m)).bind (fun h' v m₁ hr => ?_)
      fun _ _ _ hr => .of_steady hr.exit
    exact .answer (r := .error (.returning (v.getD .null)) m₁)
      (.of_passing hr.1 fun f heq => by cases heq)
  | branch bs otherwise =>
    refine Stmt.branches_plan rfl (fun b hb s hs => ?_) (fun s hs => ?_) rfl rfl (.refl m)
    · exact List.mem_append_left _ (List.mem_flatMap.mpr ⟨b, hb, hs⟩)
    · exact List.mem_append_right _ hs
  | loop condition body => exact Stmt.while_plan rfl rounds (.refl m)
  | each targets subject body constant =>
    refine (Task.Steadily.expr ⟨rfl, rfl⟩ subject h m (.refl m)).bind (fun h₁ v m₁ hr₁ => ?_)
      fun _ _ _ hr => .of_steady hr.exit
    refine (Task.Steadily.iterate rfl v h₁ m₁ hr₁.1).bind (fun h₂ walk m₂ hr₂ => ?_)
      fun _ _ _ hr => .of_steady hr.exit
    exact Stmt.each_plan rfl rounds walk hr₂.1
  | breakLoop =>
    exact .answer (r := .error .breaking m) (.of_passing (.refl m) fun f heq => by cases heq)
  | continueLoop =>
    exact .answer (r := .error .continuing m) (.of_passing (.refl m) fun f heq => by cases heq)
  | define f =>
    refine steady (.bind (.closure ⟨rfl, rfl⟩ none List.mem_cons_self) fun r =>
      .own (.bind (.onStore ?_) fun _ => .pure _))
    exact StoreM.declare_sameCode scope (f.name.getD "") (.function r) false
  | classDef x parent body => exact Stmt.defineClass_plan rfl
  | member x value constant classLevel => exact steady (.own (.throw trivial))
  | method f classLevel => exact steady (.own (.throw trivial))
  | exports names =>
    have hget : (get : Eval Machine).Apart := ⟨fun m => .refl m, fun _ => rfl, fun h => by cases h⟩
    refine steady (.own (.bind (.bind hget fun m' => ?_) fun _ => .pure _))
    cases m'.module with
    | none => exact .fault _
    | some r => exact .onStore (StoreM.exportNames_sameCode r names)

/-- **How every task goes about it.** -/
theorem Task.plan (host : Host) (rounds : Nat) (t : Task) (m : Machine) :
    (t.manner host m).Plan (t.Ends m) [] m.stock fun ev =>
      (ev.deepen (Evaluator.load host) rounds).run t m := by
  cases t with
  | expr scope e => exact Expr.plan host scope e m
  | stmt scope s => exact Stmt.plan host rounds scope s m []
  | walk v => exact Task.Steadily.iterate rfl v [] m (.refl m)

end Wei
