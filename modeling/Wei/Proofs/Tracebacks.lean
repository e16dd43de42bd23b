import Wei.Proofs.LoadOnce
import Wei.Proofs.LoadingFailure
import Wei.Proofs.Trails

/-!
Tracebacks tell of the activations that were open when the fault arose.

Whatever fails, there is a trail from what a host has had evaluated to the task in which the failure
arose: it ended in it, and none of its parts did. The report keeps the fault as soon as it comes to
a statement, and from there to where it arose no frame has changed. So the frames of the report are
the activations of the trail, with the lines of their innermost statements. The one exception is a
loop that evaluates its condition again: the frame is where the body left it.
-/

namespace Wei

/-! ### Where exits come from -/

/-- What a host is told of an exit that comes out. -/
def Exit.reported : Exit → Option Fault
  | .fault f => some f
  | .breaking => some (.strayExit "break_value")
  | .continuing => some (.strayExit "continue_value")
  | .tooDeep => some .tooDeep
  | _ => none

/-- The exit arises in this task: it is too deep, or it ends in the exit, and not because one of its
parts has failed. -/
inductive Evaluator.Arises (host : Host) (rounds : Nat) : Nat → Task → Machine → Exit → Prop
  | tooDeep (t : Task) (m : Machine) : Arises host rounds 0 t m .tooDeep
  | own {depth : Nat} {t : Task} {m m₁ : Machine} {e : Exit} :
    (ofDepth (load host) rounds (depth + 1)).run t m = .error e m₁ →
    (∀ t' m' e' m₂, (ofDepth (load host) rounds depth).Evaluates
        (fun ps => (ps.deepen (load host) rounds).run t) m t' m' →
      (ofDepth (load host) rounds depth).run t' m' = .error e' m₂ → ¬ e'.Final) →
    Arises host rounds (depth + 1) t m e

/-! ### What the report tells -/

/-- The report has the fault with frames that tell of the activations, or will have it when it is
recorded here. -/
structure Machine.Tells (m : Machine) (f : Fault) (as : List Activation) : Prop where
  fault : (m.recordFault f).report.fault = some f
  frames : List.Forall₂ Activation.Fits as (m.recordFault f).report.frames.reverse

namespace Machine

variable {m m' : Machine} {f : Fault} {as : List Activation}

lemma report_recordFault_of_none (h : m.report.fault = none) (f : Fault) :
    (m.recordFault f).report =
      { m.report with fault := some f, frames := m.stack.frames.reverse } := by
  unfold recordFault Report.record
  rw [h]
  rfl

lemma report_recordFault_of_some {f' : Fault} (h : m.report.fault = some f') (f : Fault) :
    (m.recordFault f).report = m.report := by
  unfold recordFault Report.record
  rw [h]

/-- Nothing has been reported, and the frames are those. -/
lemma tells_of_fits (h : m.report.fault = none)
    (hfits : List.Forall₂ Activation.Fits as m.stack.frames) (f : Fault) : m.Tells f as := by
  have hreport := report_recordFault_of_none h f
  refine ⟨by rw [hreport], ?_⟩
  rw [hreport, List.reverse_reverse]
  exact hfits

/-- What has been recorded is told from then on. -/
lemma Tells.of_report (h : m.Tells f as) (hm' : m'.report = (m.recordFault f).report) :
    m'.Tells f as := by
  have hreport : (m'.recordFault f).report = (m.recordFault f).report := by
    rw [report_recordFault_of_some (hm' ▸ h.fault), hm']
  exact ⟨hreport ▸ h.fault, hreport ▸ h.frames⟩

end Machine

namespace Reaction

variable {u : Reaction} {e e' : Exit} {m m' : Machine} {f : Fault} {as : List Activation}

lemma Inner.eq (hu : u.Inner) (h : u e m = some (e', m')) :
    e' = e ∧ (m' = m ∨ m' = m.noting e) := by
  rcases hu with rfl | ⟨lets, rfl⟩
  · cases h
    exact ⟨rfl, .inl rfl⟩
  · unfold noting at h
    split at h
    · cases h
      exact ⟨rfl, .inr rfl⟩
    · cases h

lemma Inner.tells (hu : u.Inner) (h : u e m = some (e', m')) (hf : e.reported = some f)
    (htells : m.Tells f as) : m'.Tells f as := by
  obtain ⟨rfl, rfl | rfl⟩ := hu.eq h
  · exact htells
  · cases e' with
    | fault f' =>
      cases hf
      exact htells.of_report rfl
    | _ => exact htells

lemma ended_exit (h : ended e m = some (e', m')) :
    e'.reported = e.reported ∧ (e' = .tooDeep ↔ e = .tooDeep) ∧ m'.stack = m.stack := by
  cases e with
  | returning v => cases h
  | breaking =>
    cases h
    exact ⟨rfl, ⟨fun heq => (by cases heq), fun heq => (by cases heq)⟩, rfl⟩
  | continuing =>
    cases h
    exact ⟨rfl, ⟨fun heq => (by cases heq), fun heq => (by cases heq)⟩, rfl⟩
  | _ =>
    cases h
    exact ⟨rfl, .rfl, rfl⟩

/-- What gets so far has been recorded. -/
lemma ended_report (h : ended e m = some (e', m')) (hne : e ≠ .tooDeep)
    (hf : e.reported = some f) : m'.report = (m.recordFault f).report := by
  cases e with
  | tooDeep => exact absurd rfl hne
  | fault f' =>
    cases h
    cases hf
    rfl
  | breaking =>
    cases h
    cases hf
    rfl
  | continuing =>
    cases h
    cases hf
    rfl
  | _ => cases hf

/-- What is no fault when it comes out was none, and has left the state as it was. -/
lemma ended_quiet (h : ended e m = some (e', m')) (hne : ∀ f, e' ≠ .fault f) :
    m' = m ∧ ∀ f, e ≠ .fault f := by
  cases e with
  | returning v => cases h
  | crash c =>
    cases h
    exact ⟨rfl, hne⟩
  | unfinished =>
    cases h
    exact ⟨rfl, hne⟩
  | tooDeep =>
    cases h
    exact ⟨rfl, hne⟩
  | _ =>
    cases h
    exact absurd rfl (hne _)

lemma Outer.ended (hu : u.Outer) (h : u e m = some (e', m')) :
    ∃ m₁, Reaction.ended e m = some (e', m₁) ∧ m'.report = m₁.report ∧
      m'.stack = m₁.stack.pop := by
  have hcalled {e₂ : Exit} {m₂ : Machine} (h₂ : called e m = some (e₂, m₂)) :
      ∃ m₁, Reaction.ended e m = some (e₂, m₁) ∧ m₂.report = m₁.report ∧
        m₂.stack = m₁.stack.pop := by
    obtain ⟨⟨e₁, m₁⟩, hended, heq⟩ := Option.map_eq_some_iff.mp h₂
    cases heq
    exact ⟨m₁, hended, rfl, rfl⟩
  rcases hu with rfl | ⟨module, rfl⟩
  · exact hcalled h
  · obtain ⟨⟨e₁, m₂⟩, h₂, heq⟩ := Option.map_eq_some_iff.mp h
    cases heq
    obtain ⟨m₁, hended, hreport, hstack⟩ := hcalled h₂
    exact ⟨m₁, hended, hreport, hstack⟩

end Reaction

/-! ### From an exit to where it arose -/

lemma Task.Keeps.onward {t : Task} {m : Machine} {r : Outcome t.Answer} (h : t.Keeps m r) :
    m.Leaves Machine.Onward r := by
  cases t with
  | expr _ _ => exact (Machine.LeavesSteady.steady h).onward
  | stmt _ _ => exact h
  | walk _ => exact (Machine.LeavesSteady.steady h).onward

lemma Machine.Leaves.store {m m₁ : Machine} {α : Type} {e : Exit}
    (h : m.Leaves (α := α) Onward (.error e m₁)) : m.world.store.Extends m₁.world.store := by
  cases e with
  | fault f => exact (show m.Onward { m₁ with report := m.report } from h).store
  | _ => exact Onward.store h

/-- What exits, but not in a fault, has reported nothing. -/
lemma Machine.Leaves.report_eq {m m₁ : Machine} {α : Type} {e : Exit}
    (h : m.Leaves (α := α) Onward (.error e m₁)) (hne : ∀ f, e ≠ .fault f) :
    m₁.report = m.report := by
  cases e with
  | fault f => exact absurd rfl (hne f)
  | _ => exact Onward.report h

/-- The exit of a task is that which has arisen at the end of the trail, and the activations there
are told. If it was too deep there, only the frames that the task found are left when it exits. -/
structure Evaluator.Explains (host : Host) (rounds depth : Nat) (t : Task) (m : Machine)
    (as : List Activation) (e : Exit) (m₁ : Machine) (depth' : Nat) (t' : Task) (m' : Machine)
    (as' : List Activation) (e₀ : Exit) : Prop where
  trail : Trail host rounds depth t m as depth' t' m' as'
  arises : Arises host rounds depth' t' m' e₀
  reported : e₀.reported = e.reported
  tooDeep : e₀ = .tooDeep ↔ e = .tooDeep
  tells {f : Fault} : e ≠ .tooDeep → e.reported = some f → m₁.Tells f as'
  below : e = .tooDeep →
    List.Forall₂ Activation.Fits (as'.drop (as'.length - as.length)) m₁.stack.frames
  sourced : ∀ a ∈ as', a.Sourced m₁.world.store

namespace Evaluator

variable {host : Host} {rounds depth : Nat} {t : Task} {m m₁ : Machine} {a : Activation}
  {as : List Activation} {e : Exit}

/-- A task that ends in an exit by itself. -/
lemma exists_explains_of_ends {h : List Query} {r : Outcome t.Answer} (hstands : t.Stands m a as)
    (hreport : m.report.fault = none) (hends : t.Ends m h r) (hr : r = .error e m₁)
    (harises : Arises host rounds depth t m e) :
    ∃ as', Explains host rounds depth t m (a :: as) e m₁ depth t m as' e := by
  subst hr
  have hsourced (a' : Activation) (ha' : a' ∈ a :: as) : a'.Sourced m₁.world.store :=
    (hstands.sourced a' ha').mono hends.keeps.onward.store
  -- the frame is still on the line of the task
  have hsteady (hm : m.Steady m₁) :
      Explains host rounds depth t m (a :: as) e m₁ depth t m (a :: as) e := by
    have hfits : List.Forall₂ Activation.Fits (a :: as) m₁.stack.frames := hm.stack ▸ hstands.fits
    refine ⟨.self .., harises, rfl, .rfl, fun _ _ => ?_, fun _ => ?_, hsourced⟩
    · exact Machine.tells_of_fits (hm.report ▸ hreport) hfits _
    · rw [Nat.sub_self]
      exact hfits
  cases t with
  | expr scope x => exact ⟨_, hsteady hends.1⟩
  | walk v => exact ⟨_, hsteady hends.1⟩
  | stmt scope s =>
    by_cases hfailing : e.Failing
    · cases e with
      | fault f =>
        rcases Stmt.Ends.fault hends rfl with hm | ⟨s', hs', m₂, hm₂, hline, rfl⟩
        · exact ⟨_, hsteady hm⟩
        · have hfits := Activation.fits_onto hstands.fits hm₂.stack hline
          have htells := Machine.tells_of_fits (hm₂.report ▸ hreport) hfits f
          obtain ⟨ha, has⟩ := List.forall_mem_cons.mp hsourced
          refine ⟨a.onto s' :: as, .declaring hs', harises, rfl, .rfl, fun _ hf => ?_,
            fun heq => (by cases heq), List.forall_mem_cons.mpr ⟨ha.of_code rfl rfl rfl, has⟩⟩
          cases hf
          exact htells.of_report rfl
      | crash c =>
        exact ⟨_, .self .., harises, rfl, .rfl, fun _ hf => (by cases hf),
          fun heq => (by cases heq), hsourced⟩
      | unfinished =>
        exact ⟨_, .self .., harises, rfl, .rfl, fun _ hf => (by cases hf),
          fun heq => (by cases heq), hsourced⟩
      | _ => exact hfailing.elim
    · exact ⟨_, hsteady (Stmt.Ends.passing hends rfl hfailing)⟩

/-- A part of a task has exited in the same activation, and the task with it. -/
lemma Explains.inner {t₁ t' : Task} {m' m₂ m₃ : Machine} {a₁ : Activation}
    {as' : List Activation} {e' e₀ : Exit} {u : Reaction} {depth' : Nat}
    (heval : (ofDepth (load host) rounds depth).Evaluates
      (fun ps => (ps.deepen (load host) rounds).run t) m t₁ m₁)
    (hopens : (ofDepth (load host) rounds depth).Opens host rounds t m (a :: as) t₁ m₁ (a₁ :: as))
    (h : Explains host rounds depth t₁ m₁ (a₁ :: as) e m₂ depth' t' m' as' e₀) (hu : u.Inner)
    (hout : u e m₂ = some (e', m₃)) (hworld : m₃.world = m₂.world) :
    Explains host rounds (depth + 1) t m (a :: as) e' m₃ depth' t' m' as' e₀ := by
  obtain ⟨rfl, hm₃⟩ := hu.eq hout
  refine ⟨.part heval hopens h.trail, h.arises, h.reported, h.tooDeep,
    fun hne hf => hu.tells hout hf (h.tells hne hf), fun heq => ?_, hworld ▸ h.sourced⟩
  have hbelow := h.below heq
  subst heq
  obtain rfl : m₃ = m₂ := hm₃.elim id id
  exact hbelow

/-- A part of a task has exited in an activation of its own, and the task with it. -/
lemma Explains.outer {t₁ t' : Task} {m' m₂ m₃ : Machine} {a₁ : Activation}
    {as' : List Activation} {e' e₀ : Exit} {u : Reaction} {depth' : Nat}
    (heval : (ofDepth (load host) rounds depth).Evaluates
      (fun ps => (ps.deepen (load host) rounds).run t) m t₁ m₁)
    (hopens : (ofDepth (load host) rounds depth).Opens host rounds t m as t₁ m₁ (a₁ :: as))
    (h : Explains host rounds depth t₁ m₁ (a₁ :: as) e m₂ depth' t' m' as' e₀) (hu : u.Outer)
    (hout : u e m₂ = some (e', m₃)) (hworld : m₃.world = m₂.world) :
    Explains host rounds (depth + 1) t m as e' m₃ depth' t' m' as' e₀ := by
  obtain ⟨m₄, hended, hreport, hstack⟩ := hu.ended hout
  obtain ⟨hreported, hdeep, hsame⟩ := Reaction.ended_exit hended
  refine ⟨.part heval hopens h.trail, h.arises, h.reported.trans hreported.symm,
    h.tooDeep.trans hdeep.symm, fun hne hf => ?_, fun heq => ?_, hworld ▸ h.sourced⟩
  · have hne' : e ≠ .tooDeep := fun heq => hne (hdeep.mpr heq)
    have hf' := hreported.symm.trans hf
    exact (h.tells hne' hf').of_report (hreport.trans (Reaction.ended_report hended hne' hf'))
  · have hbelow := h.below (hdeep.mp heq)
    have hlength : as'.length - as.length = as'.length - (a₁ :: as).length + 1 := by
      have := h.trail.length_le
      simp only [List.length_cons] at this ⊢
      omega
    have hpop : m₂.stack.pop.frames = m₂.stack.frames.drop 1 := List.drop_one.symm
    rw [hlength, hstack, hsame, hpop, ← List.drop_drop]
    exact List.forall₂_drop 1 hbelow

/-- **Every exit is explained by a trail to where it arose.** -/
theorem exists_explains (depth : Nat) {t : Task} {m m₁ : Machine} {a : Activation}
    {as : List Activation} {e : Exit} (hstands : t.Stands m a as) (hreport : m.report.fault = none)
    (hrun : (ofDepth (load host) rounds depth).run t m = .error e m₁) :
    ∃ depth' t' m' as' e₀,
      Explains host rounds depth t m (a :: as) e m₁ depth' t' m' as' e₀ := by
  induction depth generalizing t m m₁ a as e with
  | zero =>
    have hdeep : (ofDepth (load host) rounds 0).run t m = .error .tooDeep m := by
      cases t <;> rfl
    cases hdeep.symm.trans hrun
    refine ⟨0, t, m, a :: as, .tooDeep, .self .., .tooDeep t m, rfl, .rfl,
      fun hne => absurd rfl hne, fun _ => ?_, hstands.sourced⟩
    rw [Nat.sub_self]
    exact hstands.fits
  | succ depth ih =>
    have hreading := (ofDepth_keeping host rounds depth).reading host rounds t m
    rcases hreading.ends with
      ⟨h, t₁, m₂, u, e₁, m₃, e', m₄, hpart, hsince, heval, hfails, hu, hworld, hends⟩ |
      ⟨h, hends, hsince, hall⟩
    · -- a part has exited, and brings its own trail
      cases hends.symm.trans hrun
      obtain ⟨a₁, as₁, hopens, hstands₁, hsame, hkind⟩ := Part.opens hpart hstands hsince.passes
      obtain ⟨depth', t', m', as', e₀, hexplains⟩ := ih hstands₁ (hsame ▸ hreport) hfails
      rcases hkind with ⟨hinner, rfl⟩ | ⟨houter, rfl⟩
      · exact ⟨depth', t', m', as', e₀, hexplains.inner heval hopens hinner hu hworld⟩
      · exact ⟨depth', t', m', as', e₀, hexplains.outer heval hopens houter hu hworld⟩
    · -- the exit arises here
      have harises : Arises host rounds (depth + 1) t m e := by
        refine .own hrun fun t' m' e' m₂ heval hfails hfinal => ?_
        obtain ⟨r, hr⟩ := hall t' m' heval
        obtain ⟨_, u, hasks, hgoes⟩ := (hsince.passes _ hr).goes
        obtain ⟨m₃, hu⟩ := (Part.fair hasks).final (m := m₂) hfinal
        cases (hgoes e' m₂ ((hsince.passes _ hr).run.symm.trans hfails)).symm.trans hu
      obtain ⟨as', hexplains⟩ := exists_explains_of_ends hstands hreport hends hrun harises
      exact ⟨_, _, _, as', _, hexplains⟩

end Evaluator

/-! ### What is reported to hosts -/

/-- The activations of which frames are there when the exit is reported. Of one that is too deep
they have been taken off by then, but for the first. -/
def Exit.reportedOf : Exit → List Activation → List Activation
  | .tooDeep, as => as.drop (as.length - 1)
  | _, as => as

/-- **The frames tell how the fault came about.** From the node that has been evaluated in this
state a trail leads to the task in which it arose, and the frames are the activations there. -/
inductive Eval.Located (host : Host) (limits : Limits) (n : Node) (scope : Ref .scope) (m : Machine)
    (f : Fault) (as : List Activation) (frames : List Frame) : Prop
  | intro {t t' : Task} {m₀ m₁ : Machine} {a : Activation} {depth : Nat} {e : Exit} :
    Eval.Starts host limits n scope m t m₀ a →
    Evaluator.Trail host limits.rounds limits.depth t m₀ [a] depth t' m₁ as →
    Evaluator.Arises host limits.rounds depth t' m₁ e → e.reported = some f →
    List.Forall₂ Activation.Fits (e.reportedOf as) frames.reverse →
    Located host limits n scope m f as frames

namespace Eval

variable {host : Host} {limits : Limits} {n : Node} {scope : Ref .scope} {m : Machine} {f : Fault}

/-- The state when a node has been evaluated. -/
lemma after_evaluate (host : Host) (limits : Limits) (n : Node) (scope : Ref .scope)
    (hidle : m.stack.frames = []) :
    ∃ stack, (evaluate host limits n scope).after m =
      { (recording (boundingDepth fun _ => wholeNode
        (.ofDepth (Evaluator.load host) limits.rounds limits.depth) n scope m.atBottom)).after
          m.atBottom with stack := stack } := by
  have heq : evaluate host limits n scope m = _ := evaluateOver_of_idle _ n scope hidle
  rw [EStateM.after, heq]
  generalize wholeNode _ n scope m.atBottom = r
  cases r with
  | ok v m₁ => exact ⟨_, rfl⟩
  | error e m₁ => cases e <;> exact ⟨_, rfl⟩

lemma world_after_bounded (r : Outcome Value) (m : Machine) :
    ((recording (boundingDepth fun _ => r)).after m).world = r.state.world := by
  cases r with
  | ok v m₁ => rfl
  | error e m₁ => cases e <;> rfl

/-- **What is reported when a node has been evaluated is located.** -/
theorem evaluate_located (hidle : m.stack.frames = [])
    (h : ((evaluate host limits n scope).after m).report.fault = some f) :
    ∃ as, Located host limits n scope m f as
        ((evaluate host limits n scope).after m).report.frames ∧
      ∀ a ∈ as, a.Sourced ((evaluate host limits n scope).after m).world.store := by
  have hparts := Evaluator.ofDepth_keeping host limits.rounds limits.depth
  obtain ⟨stack, hafter⟩ := after_evaluate host limits n scope hidle
  rw [hafter] at h ⊢
  rcases (hparts.reading_node n scope m.atBottom).ends with
    ⟨_, t, m', u, e, m₁, e', m₂, hasks, _, heval, hfails, hu, hworld, hends⟩ |
    ⟨_, ⟨hok, honward⟩, _⟩
  · obtain ⟨a, hstarts, rfl⟩ := Node.starts hasks heval
    obtain ⟨hstands, hclear⟩ := hstarts.stands
    have hnone : m'.report.fault = none := congrArg Report.fault hclear
    have hkeeps := (hparts t m').onward
    rw [hfails] at hkeeps
    obtain ⟨depth, t', m₃, as, e₀, hexplains⟩ := Evaluator.exists_explains _ hstands hnone hfails
    obtain ⟨hreported, hdeep, hstack⟩ := Reaction.ended_exit hu
    have hquiet (hne : ∀ f, e' ≠ .fault f) : m₂.report.fault = none := by
      obtain ⟨rfl, hne'⟩ := Reaction.ended_quiet hu hne
      rw [hkeeps.report_eq hne']
      exact hnone
    rw [hends] at h ⊢
    refine ⟨as, ?_, fun a ha => ?_⟩
    · cases e' with
      | fault f' =>
        have hne : e ≠ .tooDeep := fun heq => by cases hdeep.mpr heq
        have htells := hexplains.tells hne hreported.symm
        have htells₂ := htells.of_report (Reaction.ended_report hu hne hreported.symm)
        cases htells₂.fault.symm.trans h
        have hall : e₀.reportedOf as = as := by
          cases e₀ with
          | tooDeep => exact absurd (hexplains.tooDeep.mp rfl) hne
          | _ => rfl
        refine .intro hstarts hexplains.trail hexplains.arises
          (hexplains.reported.trans hreported.symm) ?_
        rw [hall]
        exact htells₂.frames
      | tooDeep =>
        obtain rfl := hdeep.mp rfl
        obtain rfl := hexplains.tooDeep.mpr rfl
        have hfits := hexplains.below rfl
        rw [← hstack] at hfits
        have htells := Machine.tells_of_fits (hquiet fun f heq => by cases heq) hfits .tooDeep
        cases htells.fault.symm.trans h
        exact .intro hstarts hexplains.trail hexplains.arises rfl htells.frames
      | _ => cases (hquiet fun f heq => by cases heq).symm.trans h
    · rw [world_after_bounded]
      exact hworld ▸ hexplains.sourced a ha
  · obtain ⟨v, m₁, hok⟩ := hok
    rw [hok] at h honward
    cases (congrArg Report.fault honward.report).symm.trans h

/-- The module of a main program is opened in the frames that are there. -/
lemma stack_of_opens {raw text : String} {m₁ : Machine} (h : host.Opens raw m text scope m₁) :
    m₁.stack = m.stack := by
  rcases openModule_cases host raw (m.starting raw) with ⟨_, hopen⟩ | ⟨r, m₂, hopen, hm₂⟩
  · cases h.opened.symm.trans hopen
  · cases h.opened.symm.trans hopen
    rcases hm₂ with rfl | rfl | ⟨path, _, rfl⟩ <;> rfl

/-- **What becomes of a main program**: nothing is evaluated if its file cannot be read, or if its
text is no program. No frame has to do with that. -/
inductive Ran (host : Host) (limits : Limits) (raw : String) (m : Machine) : Machine → Prop
  | unread {report : Report} {err : String} {sources : SourceMemory} : report.frames = [] →
    (report.fault ≠ none → host.UnusableMain raw m) →
    Ran host limits raw m { m with report := report, err := err, sources := sources }
  | rejected {text : String} {scope : Ref .scope} {m₁ : Machine} {report : Report} {err : String}
      {sources : SourceMemory} : host.Opens raw m text scope m₁ → report.frames = [] →
    (report.fault ≠ none → host.UnusableMain raw m) →
    Ran host limits raw m { m₁.parsing text with report := report, err := err, sources := sources }
  | evaluated {text : String} {scope : Ref .scope} {m₁ : Machine} {p : Program} {err : String}
      {sources : SourceMemory} : host.Opens raw m text scope m₁ →
    host.parse text m₁.modulePath = .program p → Ran host limits raw m
      { (evaluate host limits (.program p) scope).after (m₁.parsing text) with
        err := err, sources := sources }

/-- The state when a main program has been run, and complained about. -/
lemma after_runFile (host : Host) (limits : Limits) (raw : String) (m : Machine) :
    ∃ err sources, (runFile host limits raw).after m =
      { (mainProgram host limits raw).after (m.starting raw) with
        err := err, sources := sources } := by
  have hsame : (runFile host limits raw).after m =
      (complaining host (mainProgram host limits raw)).after (m.starting raw) := rfl
  rcases after_complaining host (mainProgram host limits raw) (m.starting raw) with h | h
  · rw [hsame, h]
    exact ⟨_, _, rfl⟩
  · obtain ⟨sources, err, hcomplain⟩ :=
      after_complain host ((mainProgram host limits raw).after (m.starting raw))
    rw [hsame, h, hcomplain]
    exact ⟨err, sources, rfl⟩

/-- The state when the text of a main program has been evaluated. -/
lemma after_runFile_of_program {raw text : String} {m₁ : Machine} {p : Program} (limits : Limits)
    (hopen : host.Opens raw m text scope m₁) (hparse : host.parse text m₁.modulePath = .program p) :
    ∃ err sources, (runFile host limits raw).after m =
      { (evaluate host limits (.program p) scope).after (m₁.parsing text) with
        err := err, sources := sources } := by
  obtain ⟨err, sources, hafter⟩ := after_runFile host limits raw m
  have hmain := mainProgram_of_text limits hopen.read hopen.opened
  rw [hparse] at hmain
  have hevaluate : (mainProgram host limits raw).after (m.starting raw) =
      (evaluate host limits (.program p) scope).after (m₁.parsing text) := by
    rw [EStateM.after, hmain]
    rfl
  exact ⟨err, sources, by rw [hafter, hevaluate]⟩

theorem runFile_ran (host : Host) (limits : Limits) (raw : String) (m : Machine) :
    Ran host limits raw m ((runFile host limits raw).after m) := by
  obtain ⟨err, sources, hafter⟩ := after_runFile host limits raw m
  rw [hafter]
  have hmain := mainProgram_eq host limits raw (m.starting raw)
  rcases hread : host.files.readText raw with c | refusal | text
  · rw [hread] at hmain
    rw [EStateM.after_of_error hmain]
    exact .unread rfl fun hne => absurd rfl hne
  · rw [hread] at hmain
    rw [EStateM.after_of_error hmain]
    exact .unread rfl fun _ => .refused hread
  · obtain ⟨scope, m₁, hopen, hreset⟩ := exists_opens hread m
    have hmain := mainProgram_of_text limits hopen.read hopen.opened
    cases hparse : host.parse text m₁.modulePath with
    | crash c =>
      rw [hparse] at hmain
      rw [EStateM.after_of_error hmain]
      exact .rejected hopen (congrArg Report.frames hreset)
        fun hne => absurd (congrArg Report.fault hreset) hne
    | syntaxError message =>
      rw [hparse] at hmain
      rw [EStateM.after_of_error hmain]
      have hframes : (m₁.report.record (.unparsableModule raw message) []).frames = [] := by
        rw [hreset]
        rfl
      exact .rejected hopen hframes fun _ => .rejected hopen hparse
    | program p =>
      obtain ⟨err', sources', hprogram⟩ := after_runFile_of_program limits hopen hparse
      rw [← hafter, hprogram]
      exact .evaluated hopen hparse

/-- **What is reported when a main program has been run is located**, unless its file is of no use.
-/
theorem Ran.located {raw : String} {m' : Machine} (hran : Ran host limits raw m m')
    (hidle : m.stack.frames = []) (h : m'.report.fault = some f) :
    (host.UnusableMain raw m ∧ m'.report.frames = []) ∨
      ∃ text scope m₁ p as, host.Opens raw m text scope m₁ ∧
        host.parse text m₁.modulePath = .program p ∧
        Located host limits (.program p) scope (m₁.parsing text) f as m'.report.frames := by
  have hne {report : Report} (hf : report.fault = some f) : report.fault ≠ none := by
    rw [hf]
    exact Option.some_ne_none f
  cases hran with
  | unread hframes hunusable => exact .inl ⟨hunusable (hne h), hframes⟩
  | rejected _ hframes hunusable => exact .inl ⟨hunusable (hne h), hframes⟩
  | @evaluated text scope m₁ p _ _ hopen hparse =>
    have hidle₁ : (m₁.parsing text).stack.frames = [] := (stack_of_opens hopen).symm ▸ hidle
    obtain ⟨as, hlocated, _⟩ := evaluate_located hidle₁ h
    exact .inr ⟨text, scope, m₁, p, as, hopen, hparse, hlocated⟩

end Eval

/-- A session that has its turn has no frames. -/
lemma Engine.Reachable.frames_eq_nil {strict : Bool} {p : Engine} (h : p.Reachable strict)
    (i : Nat) : (p.machine i).stack.frames = [] := List.length_eq_zero_iff.mp (h.idle i)

/-- **Tracebacks tell of the activations that were open when the fault arose.** Whatever a host has
evaluated, and whatever file it has run: if a fault has been reported in the end, a trail leads to
the task in which it arose, and the frames are the activations there, the outermost first, each on
the line of its innermost statement. But if that is a loop which evaluates its condition again, the
line may be another; of a fault that was too deep only the first frame is left; and no frame is
there if the file could not be opened or parsed. -/
theorem Engine.tracebacks_tell_of_open_activations {strict : Bool} {p : Engine}
    (hp : p.Reachable strict) (i : Nat) (host : Host) (limits : Limits) (f : Fault) :
    (∀ n scope, ((Eval.evaluate host limits n scope).after (p.machine i)).report.fault = some f →
      ∃ as, Eval.Located host limits n scope (p.machine i) f as
        ((Eval.evaluate host limits n scope).after (p.machine i)).report.frames) ∧
    ∀ raw, ((Eval.runFile host limits raw).after (p.machine i)).report.fault = some f →
      (host.UnusableMain raw (p.machine i) ∧
          ((Eval.runFile host limits raw).after (p.machine i)).report.frames = []) ∨
        ∃ text scope m₁ program as, host.Opens raw (p.machine i) text scope m₁ ∧
          host.parse text m₁.modulePath = .program program ∧
          Eval.Located host limits (.program program) scope (m₁.parsing text) f as
            ((Eval.runFile host limits raw).after (p.machine i)).report.frames := by
  refine ⟨fun n scope h => ?_, fun raw h => ?_⟩
  · obtain ⟨as, hlocated, _⟩ := Eval.evaluate_located (hp.frames_eq_nil i) h
    exact ⟨as, hlocated⟩
  · exact (Eval.runFile_ran host limits raw (p.machine i)).located (hp.frames_eq_nil i) h

section Traced

/-- A function that fails on line 2 is called on line 3. -/
private def failingProgram : Program :=
  ⟨[.mk 1 (.define (.mk (some "f") [] [.mk 2 (.eval (.name "ghost"))])),
    .mk 3 (.eval (.call (.name "f") []))]⟩

/-- A loop on line 2 whose body, on line 7, makes its condition fail. -/
private def loopingProgram : Program :=
  ⟨[.mk 1 (.declare "x" (some (.literal (.int 1))) false),
    .mk 2 (.loop (.binary .lt (.name "x") (.literal (.int 2)))
      [.mk 7 (.assign (.name "x") (.literal (.str "s")))])]⟩

/-- The host where every text is the program that fails, and `a.wei` is the only file. -/
private def tracedHost : Host :=
  ⟨(FileTree.empty ⟨["W"]⟩).write "a.wei" (.file "?".toUTF8), fun _ _ => .program failingProgram,
    Text.line?⟩

/-- The first session has opened a module. -/
private def tracedStart : Engine :=
  ((Engine.initial.newSession false .standard none).turn 0 (Eval.openModule tracedHost "")).2

/-- A program for the session, in the scope of its module. -/
private def tracedTurn (program : Program) : Eval Value :=
  Eval.evaluate tracedHost ⟨20, 20⟩ (.program program) ⟨0⟩

/-- The fault in a function that the program has called, when the program is evaluated and when it
is run as a file. Both frames are there. -/
theorem Engine.traceback_of_failing_call :
    ((tracedTurn failingProgram).after (tracedStart.machine 0)).report.frames =
      [⟨"", "<module>", 3⟩, ⟨"", "f", 2⟩] ∧
    (∃ as, Eval.Located tracedHost ⟨20, 20⟩ (.program failingProgram) ⟨0⟩ (tracedStart.machine 0)
      (.undefinedName "ghost") as [⟨"", "<module>", 3⟩, ⟨"", "f", 2⟩]) ∧
    ∃ text scope m₁ program as, tracedHost.Opens "a.wei" (tracedStart.machine 0) text scope m₁ ∧
      tracedHost.parse text m₁.modulePath = .program program ∧
      Eval.Located tracedHost ⟨20, 20⟩ (.program program) scope (m₁.parsing text)
        (.undefinedName "ghost") as [⟨"/W/a.wei", "<module>", 3⟩, ⟨"/W/a.wei", "f", 2⟩] := by
  have hreachable : tracedStart.Reachable true :=
    .openModule 0 tracedHost "" (.newSession false .standard none .initial)
  obtain ⟨hevaluate, hrun⟩ := Engine.tracebacks_tell_of_open_activations hreachable 0 tracedHost
    ⟨20, 20⟩ (.undefinedName "ghost")
  have hfault : ((tracedTurn failingProgram).after (tracedStart.machine 0)).report.fault =
      some (.undefinedName "ghost") := by decide +kernel
  have hframes : ((tracedTurn failingProgram).after (tracedStart.machine 0)).report.frames =
      [⟨"", "<module>", 3⟩, ⟨"", "f", 2⟩] := by decide +kernel
  have hfault' : ((Eval.runFile tracedHost ⟨20, 20⟩ "a.wei").after
      (tracedStart.machine 0)).report.fault = some (.undefinedName "ghost") := by decide +kernel
  have hframes' : ((Eval.runFile tracedHost ⟨20, 20⟩ "a.wei").after
      (tracedStart.machine 0)).report.frames =
      [⟨"/W/a.wei", "<module>", 3⟩, ⟨"/W/a.wei", "f", 2⟩] := by decide +kernel
  have hlocated := hevaluate _ _ hfault
  have hran := hrun _ hfault'
  refine ⟨hframes, hframes ▸ hlocated, ?_⟩
  rw [hframes'] at hran
  rcases hran with ⟨_, hnone⟩ | hlocated'
  · cases hnone
  · exact hlocated'

/-- **The condition of a loop fails, and the line is that of the body.** The assignment on line 7
has been executed, and what fails then is the comparison, which stands on line 2. -/
theorem Engine.repeated_condition_on_line_of_body :
    let m := (tracedTurn loopingProgram).after (tracedStart.machine 0)
    m.report.fault.map Fault.message = some "unsupported operand type for <: 'str' and 'int'" ∧
      ((m.world.store.scope ⟨0⟩).bindings.find? "x").map (·.value) = some (.str "s") ∧
      m.report.frames = [⟨"", "<module>", 7⟩] := by
  decide +kernel

end Traced

end Wei
