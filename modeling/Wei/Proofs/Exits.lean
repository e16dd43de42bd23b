import Wei.Proofs.Congruence

/-!
The exits of `return`, `break` and `continue` stay where they belong. Out of an expression comes
none of them, nor out of a call, and what a host has evaluated ends in a value or a fault.
-/

namespace Wei

/-- May an evaluation end like this, where the leeway says which exits may come out? -/
def Leeway.Lets (l : Leeway) {α : Type} : EStateM.Result Exit Machine α → Prop
  | .ok _ _ => True
  | .error e _ => l.lets e

/-- Of the exits that a construct takes, only those come out for which there is leeway. -/
def Eval.Confined (l : Leeway) {α : Type} (x : Eval α) : Prop := ∀ m, l.Lets (x m)

lemma Leeway.lets_fault (l : Leeway) (f : Fault) : l.lets (.fault f) := by
  cases l <;> rfl

/-- More leeway does no harm. -/
lemma Leeway.lets_of_none {e : Exit} (h : Leeway.none.lets e) (l : Leeway) : l.lets e := by
  cases e with
  | returning v => cases h
  | breaking => cases h
  | continuing => cases h
  | _ => cases l <;> rfl

namespace Eval.Confined

variable {α β : Type} {l : Leeway} {x : Eval α}

lemma onStore (y : StoreM α) : (Eval.onStore y).Confined l := by
  intro m
  rw [onStore_eq]
  split
  · trivial
  · exact l.lets_fault _

lemma own (hx : x.Own) : x.Confined l := by
  intro m
  cases hx with
  | onStore _ => exact onStore _ m
  | builtin b args =>
    rw [onWorld_eq]
    unfold Builtin.call
    cases h : b.outcome m.world.store args with
    | ok v => trivial
    | error e =>
      obtain ⟨f, rfl⟩ | rfl := Builtin.outcome_error h
      · exact l.lets_fault f
      · cases l <;> rfl
  | askStore y =>
    unfold askStore
    split
    · trivial
    · exact l.lets_fault _
  | _ => trivial

lemma loading (hx : x.Loading) : x.Confined l := by
  intro m
  cases hx <;> trivial

lemma bind {f : α → Eval β} (hx : x.Confined l) (hf : ∀ a, (f a).Confined l) :
    (x >>= f).Confined l := by
  intro m
  have h := hx m
  show l.Lets (EStateM.bind x f m)
  unfold EStateM.bind
  generalize x m = r at h ⊢
  cases r with
  | ok a m₁ => exact hf a m₁
  | error e m₁ => exact h

lemma widen (hx : x.Confined .none) : x.Confined l := by
  intro m
  have h := hx m
  generalize x m = r at h ⊢
  cases r with
  | ok a m₁ => trivial
  | error e m₁ => exact Leeway.lets_of_none h l

lemma recording (hx : x.Confined l) : (Eval.recording x).Confined l := by
  intro m
  have h := hx m
  unfold Eval.recording
  split
  · exact l.lets_fault _
  · exact h

lemma withFrame (hx : x.Confined l) (path function : String) :
    (Eval.withFrame path function x).Confined l := by
  intro m
  have h := hx { m with stack := m.stack.push path function }
  unfold Eval.withFrame
  generalize x _ = r at h ⊢
  cases r with
  | ok a m₁ => trivial
  | error e m₁ => exact h

lemma withModule (hx : x.Confined l) (r : Ref .module) : (Eval.withModule r x).Confined l := by
  intro m
  have h := hx { m with module := some r }
  unfold Eval.withModule
  generalize x _ = r at h ⊢
  cases r with
  | ok a m₁ => trivial
  | error e m₁ => exact h

lemma takingReturn {x : Eval Value} (hx : x.Confined .returns) :
    (Eval.takingReturn x).Confined .none := by
  intro m
  have h := hx m
  unfold Eval.takingReturn
  generalize x m = r at h ⊢
  cases r with
  | ok a m₁ => trivial
  | error e m₁ =>
    cases e with
    | returning v => trivial
    | breaking => cases h
    | continuing => cases h
    | _ => rfl

lemma boundingDepth (hx : x.Confined l) : (Eval.boundingDepth x).Confined l := by
  intro m
  have h := hx m
  unfold Eval.boundingDepth
  split
  · exact l.lets_fault _
  · exact h

lemma atBottom (hx : x.Confined l) : (Eval.atBottom x).Confined l := by
  intro m
  unfold Eval.atBottom
  split
  · exact hx.withFrame m.modulePath "<module>" m
  · exact hx m

lemma outsideLoops (x : Eval α) : (Eval.outsideLoops x).Confined .returns := by
  intro m
  unfold Eval.outsideLoops
  cases x m with
  | ok a m₁ => trivial
  | error e m₁ => cases e <;> rfl

lemma loopRound (x : Eval α) : (Eval.loopRound x).Confined .returns := by
  intro m
  unfold Eval.loopRound
  cases x m with
  | ok a m₁ => trivial
  | error e m₁ => cases e <;> trivial

end Eval.Confined

/-- Confinement as a congruence. It looks at one of two evaluations only. -/
def Congruence.confinement : Congruence where
  Rel l _ x _ := x.Confined l
  own := .own
  loading := .loading
  exit hl _ := hl
  bind := .bind
  widen := .widen
  loosen {_ x _} _ m := by
    cases x m with
    | ok a m₁ => trivial
    | error e m₁ => rfl
  recording := .recording
  withFrame path function hx := hx.withFrame path function
  withModule r hx := hx.withModule r
  takingReturn := .takingReturn
  outsideLoops {_ x _} _ := .outsideLoops x
  loopRound {_ x _} _ := .loopRound x

/-- No exit comes out of what a host has evaluated. -/
theorem Eval.evaluateBy_confined (load : Loader) (limits : Limits) (n : Node)
    (scope : Ref .scope) : (Eval.evaluateBy load limits n scope).Confined .none := by
  refine .bind (fun m => trivial) fun _ => .atBottom (.recording (.boundingDepth ?_))
  exact .takingReturn (.outsideLoops _)

end Wei
