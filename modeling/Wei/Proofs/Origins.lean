import Wei.Proofs.Tracebacks

/-!
What is in the cache after a task and was not before, and what functions are there, has come by a
task that changes the stock by itself. A trail leads to it. What has failed on the way has made all
that it is a part of fail.
-/

namespace Wei

/-- It has come to an exit that nothing takes. -/
def Outcome.Fails {α : Type} (r : Outcome α) : Prop := ∃ e m, r = .error e m ∧ e.Final

namespace Evaluator

/-- **A change of the stock.** A trail leads to a task that changes the stock by itself when it has
gone through some of its parts, so that this holds afterwards and has not before. If that task
fails, so does this. -/
inductive Altered (host : Host) (rounds : Nat) (T : Stock → Prop) (depth : Nat) (t : Task)
    (m : Machine) (as : List Activation) (failure : Prop) : Prop
  | intro {depth' : Nat} {t' : Task} {m' : Machine} {a : Activation} {as' : List Activation}
      {h : List Query} {σ σ' : Stock} :
    Trail host rounds depth t m as (depth' + 1) t' m' (a :: as') → t'.Stands m' a as' →
    (∀ q ∈ h, (ofDepth (load host) rounds depth').Passes
      (fun ps => (ps.deepen (load host) rounds).run t') m' (t'.manner host m') q) →
    Alteration host t' m' h σ σ' → ¬ T σ → T σ' →
    (Outcome.Fails ((ofDepth (load host) rounds (depth' + 1)).run t' m') → failure) →
    Altered host rounds T depth t m as failure

variable {host : Host} {rounds depth : Nat} {T : Stock → Prop} {t t' : Task} {m m' : Machine}
  {a : Activation} {as : List Activation} {failure failure' : Prop}

lemma Altered.imp (h : Altered host rounds T depth t m as failure) (hf : failure → failure') :
    Altered host rounds T depth t m as failure' := by
  cases h with
  | intro htrail hstands hpasses halters hnot hT hfails =>
    exact .intro htrail hstands hpasses halters hnot hT fun h => hf (hfails h)

/-- It happens in a part, in these activations. -/
lemma Altered.of_opens {as' : List Activation}
    (heval : (ofDepth (load host) rounds depth).Evaluates
      (fun ps => (ps.deepen (load host) rounds).run t) m t' m')
    (hopens : (ofDepth (load host) rounds depth).Opens host rounds t m as t' m' as')
    (h : Altered host rounds T depth t' m' as' failure) :
    Altered host rounds T (depth + 1) t m as failure := by
  cases h with
  | intro htrail hstands hpasses halters hnot hT hfails =>
    exact .intro (.part heval hopens htrail) hstands hpasses halters hnot hT hfails

/-- It happens in a part. -/
lemma Altered.of_part (hstands : t.Stands m a as)
    (heval : (ofDepth (load host) rounds depth).Evaluates
      (fun ps => (ps.deepen (load host) rounds).run t) m t' m')
    (h : ∀ a' as', t'.Stands m' a' as' →
      Altered host rounds T depth t' m' (a' :: as') failure) :
    Altered host rounds T (depth + 1) t m (a :: as) failure := by
  have hreading := (ofDepth_keeping host rounds depth).reading host rounds t m
  obtain ⟨_, _, hpart, hsince⟩ := hreading.asks heval
  obtain ⟨a', as', hopens, hstands', _⟩ := Part.opens hpart hstands hsince.passes
  exact (h a' as' hstands').of_opens heval hopens

/-- A part that a task has gone through has not failed. -/
lemma Passes.not_fails {parts : Evaluator} {q : Query}
    (h : parts.Passes (fun ps => (ps.deepen (load host) rounds).run t) m (t.manner host m) q) :
    ¬ Outcome.Fails (parts.run q.task q.start) := by
  rintro ⟨e, m₁, hrun, hfinal⟩
  obtain ⟨_, u, hasks, hgoes⟩ := h.goes
  obtain ⟨m₂, hu⟩ := (Part.fair hasks).final (m := m₁) hfinal
  cases (hgoes e m₁ (h.run.symm.trans hrun)).symm.trans hu

/-- **What has come into the stock in the course of a task has been brought there by a task of its
own.** -/
theorem exists_altered (T : Stock → Prop) (depth : Nat) {t : Task} {m : Machine} {a : Activation}
    {as : List Activation} (hstands : t.Stands m a as) (hnot : ¬ T m.stock)
    (hT : T ((ofDepth (load host) rounds depth).run t m).state.stock) :
    Altered host rounds T depth t m (a :: as)
      (Outcome.Fails ((ofDepth (load host) rounds depth).run t m)) := by
  induction depth generalizing t m a as with
  | zero =>
    have hdeep : (ofDepth (load host) rounds 0).run t m = .error .tooDeep m := by
      cases t <;> rfl
    rw [hdeep] at hT
    exact absurd hT hnot
  | succ depth ih =>
    -- it has come while the task went through some of its parts
    have hpassed {h : List Query} {σ : Stock}
        (hsince : (ofDepth (load host) rounds depth).Since
          (fun ps => (ps.deepen (load host) rounds).run t) m (t.manner host m) h σ) (hσ : T σ) :
        Altered host rounds T (depth + 1) t m (a :: as)
          (Outcome.Fails ((ofDepth (load host) rounds (depth + 1)).run t m)) := by
      rcases hsince.traces T hσ with
        hm | ⟨q, hq, hbefore, hafter⟩ | ⟨h', σ₁, σ₂, hh', halters, h₁, h₂⟩
      · exact absurd hm hnot
      · have hpass := hsince.passes q hq
        rw [← hpass.run] at hafter
        refine .of_part hstands hpass.evaluates fun a' as' hstands' => ?_
        exact (ih hstands' hbefore hafter).imp fun hfails => absurd hfails hpass.not_fails
      · have hpasses q (hq : q ∈ h') := hsince.passes q (hh'.subset hq)
        exact .intro (.self ..) hstands hpasses halters h₁ h₂ id
    have hreading := (ofDepth_keeping host rounds depth).reading host rounds t m
    rcases hreading.ends with
      ⟨h, t₁, m₁, u, e, m₂, e', m₃, hpart, hsince, heval, hfails, hu, hworld, hends⟩ |
      ⟨h, _, hsince, _⟩
    · have hstock : T m₂.stock := by
        have hstate : ((ofDepth (load host) rounds (depth + 1)).run t m).state = m₃ :=
          congrArg EStateM.Result.state hends
        rw [hstate, Machine.stock, hworld] at hT
        exact hT
      by_cases hbefore : T m₁.stock
      · exact hpassed hsince hbefore
      · -- it has come in the part that made the task exit
        refine .of_part hstands heval fun a' as' hstands' => ?_
        have hT₁ : T ((ofDepth (load host) rounds depth).run t₁ m₁).state.stock := by
          rw [hfails]
          exact hstock
        refine (ih hstands' hbefore hT₁).imp ?_
        rintro ⟨e₁, m₄, hrun, hfinal⟩
        cases hfails.symm.trans hrun
        obtain ⟨m₅, hu'⟩ := (Part.fair hpart).final (m := m₂) hfinal
        cases hu.symm.trans hu'
        exact ⟨_, _, hends, hfinal⟩
    · exact hpassed hsince hT

end Evaluator

namespace Eval

variable {host : Host} {limits : Limits} {n : Node} {scope : Ref .scope} {m : Machine}

/-- The same for what hosts have evaluated. -/
inductive Altered (host : Host) (limits : Limits) (n : Node) (scope : Ref .scope) (m : Machine)
    (T : Stock → Prop) (failure : Prop) : Prop
  | intro {t : Task} {m₀ : Machine} {a : Activation} : Starts host limits n scope m t m₀ a →
    Evaluator.Altered host limits.rounds T limits.depth t m₀ [a] failure →
    Altered host limits n scope m T failure

lemma Altered.imp {T : Stock → Prop} {failure failure' : Prop}
    (h : Altered host limits n scope m T failure) (hf : failure → failure') :
    Altered host limits n scope m T failure' := by
  cases h with
  | intro hstarts halters => exact .intro hstarts (halters.imp hf)

/-- What exits, exits for the host. -/
lemma evaluate_error_of_wholeNode {e : Exit} {m₁ : Machine} (hidle : m.stack.frames = [])
    (h : wholeNode (.ofDepth (Evaluator.load host) limits.rounds limits.depth) n scope m.atBottom =
      .error e m₁) : ∃ e' m', evaluate host limits n scope m = .error e' m' := by
  have heq : evaluate host limits n scope m = _ := evaluateOver_of_idle _ n scope hidle
  rw [heq, h]
  cases e <;> exact ⟨_, _, rfl⟩

/-- What has come into the stock while a node went through some of its parts, none of which has
failed. -/
lemma altered_of_since {T : Stock → Prop} {h : List Query} {σ : Stock}
    (hsince : (Evaluator.ofDepth (Evaluator.load host) limits.rounds limits.depth).Since
      (fun ps => wholeNode ps n scope) m.atBottom (n.manner m.atBottom scope) h σ) (hσ : T σ) :
    T m.stock ∨ Altered host limits n scope m T False := by
  rcases hsince.traces T hσ with hm | ⟨q, hq, hbefore, hafter⟩ | ⟨_, _, _, _, halters, _⟩
  · exact .inl hm
  · have hpass := hsince.passes q hq
    obtain ⟨_, u, hasks, hgoes⟩ := hpass.goes
    obtain ⟨a, hstarts, rfl⟩ := Node.starts hasks hpass.evaluates
    rw [← hpass.run] at hafter
    refine .inr (.intro hstarts
      ((Evaluator.exists_altered T _ hstarts.stands.1 hbefore hafter).imp ?_))
    rintro ⟨e, m₁, hrun, hfinal⟩
    obtain ⟨m₂, hu⟩ := Reaction.ended_fair.final (m := m₁) hfinal
    cases (hgoes e m₁ (hpass.run.symm.trans hrun)).symm.trans hu
  · exact halters.elim

/-- **What has come into the stock in a turn has been brought there by a task.** If that has failed,
so has the turn. -/
theorem exists_altered (T : Stock → Prop) (hidle : m.stack.frames = []) (hnot : ¬ T m.stock)
    (hT : T ((evaluate host limits n scope).after m).stock) :
    Altered host limits n scope m T (∃ e m', evaluate host limits n scope m = .error e m') := by
  have hparts := Evaluator.ofDepth_keeping host limits.rounds limits.depth
  obtain ⟨stack, hafter⟩ := after_evaluate host limits n scope hidle
  rw [hafter, Machine.stock, world_after_bounded] at hT
  have hpassed {h : List Query} {σ : Stock}
      (hsince : (Evaluator.ofDepth (Evaluator.load host) limits.rounds limits.depth).Since
        (fun ps => wholeNode ps n scope) m.atBottom (n.manner m.atBottom scope) h σ) (hσ : T σ) :=
    ((altered_of_since hsince hσ).resolve_left hnot).imp
      (False.elim (C := ∃ e m', evaluate host limits n scope m = .error e m'))
  rcases (hparts.reading_node n scope m.atBottom).ends with
    ⟨_, t, m', u, e, m₁, e', m₂, hasks, hsince, heval, hfails, hu, hworld, hends⟩ |
    ⟨_, _, hsince, _⟩
  · rw [hends] at hT
    by_cases hbefore : T m'.stock
    · exact hpassed hsince hbefore
    · -- it has come in the part that made the node exit
      obtain ⟨a, hstarts, rfl⟩ := Node.starts hasks heval
      have hT₁ : T ((Evaluator.ofDepth (Evaluator.load host) limits.rounds limits.depth).run t
          m').state.stock := by
        rw [hfails, EStateM.Result.state, Machine.stock, ← hworld]
        exact hT
      refine .intro hstarts ((Evaluator.exists_altered T _ hstarts.stands.1 hbefore hT₁).imp ?_)
      exact fun _ => evaluate_error_of_wholeNode hidle hends
  · exact hpassed hsince hT

end Eval

end Wei
