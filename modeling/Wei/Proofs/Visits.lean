import Wei.Proofs.Keeping

/-!
What a loop over a subject visits. Its body may do anything to the subject: a text cannot change, a
dictionary is walked as it was when the loop started, and a list is looked at before each run of the
body, at the position that is due. The *course* of a loop is told run by run: which values the
targets have, in which state the run starts, and what the loop makes of what the body comes to.
-/

namespace Wei

/-! ### What there is to visit -/

namespace Store

/-- What is visited of a value that is walked as it is now: the characters of a text with their
numbers, and the entries of a dictionary in their order. -/
def snapshot? (s : Store) : Value → Option (List (Value × Value))
  | .str t => some (t.mapIdx fun k c => (.int (Int64.ofNat k), .str [c]))
  | .dict r => some (s.dict r).values
  | _ => none

/-- **What run number `k` is about**, in a loop over a value that started in the store `s₀`, when
the store is `s`. -/
def visit? (s₀ : Store) (v : Value) (k : Nat) (s : Store) : Option (Value × Value) :=
  match v with
  | .list r => (s.list r)[k]?.map fun e => (.int (Int64.ofNat k), e)
  | v => (s₀.snapshot? v).bind fun steps => steps[k]?

/-- The walk through a value when `k` steps have been made. -/
def walkFrom (s₀ : Store) (v : Value) (k : Nat) : Iteration :=
  match v with
  | .list r => .live r k
  | v => .fixed (((s₀.snapshot? v).getD []).drop k)

variable {s₀ s : Store} {v : Value}

lemma iteration?_eq (h : (s₀.iteration? v).isSome) :
    s₀.iteration? v = some (s₀.walkFrom v 0) := by
  cases v with
  | str t =>
    have hsteps : t.zipIdx.map (fun e => (Value.int (Int64.ofNat e.2), Value.str [e.1])) =
        t.mapIdx fun k c => (.int (Int64.ofNat k), .str [c]) := by
      rw [List.mapIdx_eq_zipIdx_map]
    exact congrArg (fun steps => some (Iteration.fixed steps)) hsteps
  | list r => rfl
  | dict r => rfl
  | _ => cases h

lemma next?_fixed_drop (steps : List (Value × Value)) (k : Nat) :
    (Iteration.fixed (steps.drop k)).next? s =
      steps[k]?.map fun step => (step, .fixed (steps.drop (k + 1))) := by
  by_cases hk : k < steps.length
  · rw [List.drop_eq_getElem_cons hk, List.getElem?_eq_getElem hk]
    rfl
  · rw [List.drop_eq_nil_of_le (Nat.le_of_not_lt hk),
      List.getElem?_eq_none (Nat.le_of_not_lt hk)]
    rfl

/-- A walk goes from one visit to the next. -/
lemma next?_walkFrom (s₀ s : Store) (v : Value) (k : Nat) :
    (s₀.walkFrom v k).next? s =
      (s₀.visit? v k s).map fun step => (step, s₀.walkFrom v (k + 1)) := by
  have hfixed : (Iteration.fixed (((s₀.snapshot? v).getD []).drop k)).next? s =
      ((s₀.snapshot? v).bind fun steps => steps[k]?).map fun step =>
        (step, .fixed (((s₀.snapshot? v).getD []).drop (k + 1))) := by
    rw [next?_fixed_drop]
    cases s₀.snapshot? v <;> rfl
  cases v with
  | list r =>
    show (Iteration.live r k).next? s = ((s.list r)[k]?.map _).map _
    rw [Iteration.next?]
    cases (s.list r)[k]? <;> rfl
  | _ => exact hfixed

/-- What is visited of a snapshot does not hang on the store. -/
lemma visit?_of_snapshot {steps : List (Value × Value)} (h : s₀.snapshot? v = some steps) (k : Nat)
    (s : Store) : s₀.visit? v k s = steps[k]? := by
  cases v with
  | str t =>
    cases h
    rfl
  | dict r =>
    cases h
    rfl
  | _ => cases h

/-- A binding of the newest scope is written. -/
lemma writeBinding_push (s : Store) (c : Scope) (x : String) (b : Binding) :
    ({ s with scopes := s.scopes.push c } : Store).writeBinding ⟨s.scopes.size⟩ x b =
      { s with scopes := s.scopes.push { c with bindings := c.bindings.insert x b } } := by
  unfold writeBinding setScope scope
  rw [Arena.get_push_size, Arena.set_push_size]

end Store

/-! ### Runs of the body -/

/-- A loop over a subject that has two targets. -/
structure EachLoop where
  scope : Ref .scope
  first : String
  second : String
  subject : Expr
  body : List Stmt
  constant : Bool

/-- A run of the body of a loop: the state in which it starts, and the values of the targets. -/
structure EachLoop.Run where
  start : Machine
  step : Value × Value

/-- How far a loop has come. -/
inductive EachLoop.Progress where
  /-- It goes on from a state. -/
  | going (m : Machine)
  | ended (r : Outcome Value)

namespace EachLoop

/-- The statement. -/
def action (l : EachLoop) : Action := .each [l.first, l.second] l.subject l.body l.constant

/-- The scope of the run, which is not there yet when the run starts. -/
def Run.own (u : Run) : Ref .scope := ⟨u.start.world.store.scopes.size⟩

/-- What the scope of the run binds: the two targets. -/
def bindings (l : EachLoop) (u : Run) : OrderedMap String Binding :=
  (OrderedMap.empty.insert l.first ⟨u.step.1, l.constant⟩).insert l.second ⟨u.step.2, l.constant⟩

/-- The state in which the scope of the run has been made, inside of that of the loop. -/
def bound (l : EachLoop) (u : Run) : Machine :=
  { u.start with
    world.store.scopes := u.start.world.store.scopes.push ⟨l.bindings u, some l.scope⟩ }

/-- What the body comes to in the run. -/
def outcome (l : EachLoop) (parts : Evaluator) (u : Run) : Outcome Value :=
  parts.block u.own l.body (l.bound u)

/-- What a loop makes of that to which its body comes. A `break` ends it, and what is no `continue`
comes out. -/
def Progress.after : Outcome Value → Progress
  | .ok _ m => .going m
  | .error .continuing m => .going m
  | .error .breaking m => .ended (.ok .null m)
  | .error e m => .ended (.error e m)

/-- **The course of a loop** that starts in `m₀`: the runs so far, and how far it has come. Before
each run it is asked, in the state that there is then, what is to be visited next. -/
inductive Course (l : EachLoop) (parts : Evaluator) (visit? : Nat → Store → Option (Value × Value))
    (m₀ : Machine) : List Run → Progress → Prop
  | start : Course l parts visit? m₀ [] (.going m₀)
  | run {runs : List Run} {m : Machine} {step : Value × Value} :
    Course l parts visit? m₀ runs (.going m) → visit? runs.length m.world.store = some step →
    Course l parts visit? m₀ (runs ++ [⟨m, step⟩]) (.after (l.outcome parts ⟨m, step⟩))
  | exhausted {runs : List Run} {m : Machine} :
    Course l parts visit? m₀ runs (.going m) → visit? runs.length m.world.store = none →
    Course l parts visit? m₀ runs (.ended (.ok .null m))

variable {l : EachLoop} {parts : Evaluator} {m₀ : Machine} {runs : List Run}

/-- One round of the loop is one run of the body. -/
lemma eachRound_eq (hnames : l.first ≠ l.second) (parts : Evaluator) (u : Run) :
    parts.eachRound l.scope [l.first, l.second] l.body l.constant u.step u.start =
      Eval.loopRound (parts.block u.own l.body) (l.bound u) := by
  have hchild : Eval.onStore (StoreM.childScope l.scope) u.start =
      .ok u.own (u.start.nesting l.scope) := rfl
  have hempty : ((u.start.nesting l.scope).world.store.scope u.own).bindings = .empty :=
    congrArg Scope.bindings (Arena.get_push_size ..)
  have hdeclare : StoreM.declareAll u.own l.constant
      [(l.first, u.step.1), (l.second, u.step.2)] (u.start.nesting l.scope).world.store =
        .ok () (l.bound u).world.store := by
    rcases StoreM.declareAll_pair hempty l.constant l.first l.second u.step.1 u.step.2 with
      ⟨heq, _⟩ | ⟨_, hs⟩
    · exact absurd heq hnames
    · have hfirst := u.start.world.store.writeBinding_push ⟨.empty, some l.scope⟩ l.first
        ⟨u.step.1, l.constant⟩
      exact hs.trans (congrArg _ ((congrArg (Store.writeBinding · _ _ _) hfirst).trans
        (Store.writeBinding_push ..)))
  have hall : Eval.onStore (StoreM.declareAll u.own l.constant
      [(l.first, u.step.1), (l.second, u.step.2)]) (u.start.nesting l.scope) =
        .ok () (l.bound u) := by
    rw [Eval.onStore_eq, hdeclare]
    rfl
  unfold Evaluator.eachRound
  rw [if_neg (by simp), EStateM.bind_of_ok hchild]
  exact EStateM.bind_of_ok hall

/-- What is left of a loop over a value when `k` runs have been made, and `rounds` may be made. -/
def remaining (l : EachLoop) (parts : Evaluator) (s₀ : Store) (v : Value) (rounds k : Nat) :
    Eval Value := do
  Eval.walking (parts.eachRound l.scope [l.first, l.second] l.body l.constant) rounds
    (s₀.walkFrom v k)
  pure .null

variable {s₀ : Store} {v : Value} {k : Nat} {m : Machine}

/-- There is nothing left to visit. -/
lemma remaining_of_none (rounds : Nat) (h : s₀.visit? v k m.world.store = none) :
    l.remaining parts s₀ v (rounds + 1) k m = .ok .null m := by
  have hnext := s₀.next?_walkFrom m.world.store v k
  rw [h] at hnext
  have hwalk : Eval.walking (parts.eachRound l.scope [l.first, l.second] l.body l.constant)
      (rounds + 1) (s₀.walkFrom v k) m = .ok () m := by
    rw [Eval.walking]
    refine (EStateM.bind_of_ok (show Eval.store m = .ok m.world.store m from rfl)).trans ?_
    rw [hnext]
    rfl
  exact EStateM.bind_of_ok hwalk

/-- One more run is made. -/
lemma remaining_of_some (hnames : l.first ≠ l.second) (rounds : Nat) {step : Value × Value}
    (h : s₀.visit? v k m.world.store = some step) :
    l.remaining parts s₀ v (rounds + 1) k m =
      match Progress.after (l.outcome parts ⟨m, step⟩) with
      | .going m' => l.remaining parts s₀ v rounds (k + 1) m'
      | .ended r => r := by
  have hnext := s₀.next?_walkFrom m.world.store v k
  rw [h] at hnext
  have hround := eachRound_eq hnames parts ⟨m, step⟩
  have hwalk : Eval.walking (parts.eachRound l.scope [l.first, l.second] l.body l.constant)
      (rounds + 1) (s₀.walkFrom v k) m =
        (parts.eachRound l.scope [l.first, l.second] l.body l.constant step >>= fun goes =>
          if goes then Eval.walking (parts.eachRound l.scope [l.first, l.second] l.body l.constant)
            rounds (s₀.walkFrom v (k + 1)) else pure ()) m := by
    rw [Eval.walking]
    refine (EStateM.bind_of_ok (show Eval.store m = .ok m.world.store m from rfl)).trans ?_
    rw [hnext]
    rfl
  unfold Eval.loopRound at hround
  unfold outcome
  show EStateM.bind _ _ m = _
  unfold EStateM.bind
  rw [hwalk]
  generalize parts.block _ l.body (l.bound ⟨m, step⟩) = r at hround ⊢
  cases r with
  | ok a m' =>
    rw [EStateM.bind_of_ok hround]
    rfl
  | error e m' =>
    cases e with
    | continuing =>
      rw [EStateM.bind_of_ok hround]
      rfl
    | breaking =>
      rw [EStateM.bind_of_ok hround]
      rfl
    | _ =>
      rw [EStateM.bind_of_error hround]
      rfl

/-- The loop comes to what its course ends with, or is given up after `rounds` runs. -/
def Takes (l : EachLoop) (parts : Evaluator) (v : Value) (m₀ : Machine) (rounds : Nat)
    (runs : List Run) (r : Outcome Value) : Prop :=
  l.Course parts (m₀.world.store.visit? v) m₀ runs (.ended r) ∨
    runs.length = rounds ∧ ∃ m, l.Course parts (m₀.world.store.visit? v) m₀ runs (.going m) ∧
      r = .error .unfinished m

/-- **A loop takes its course.** -/
lemma exists_takes (hnames : l.first ≠ l.second) (rounds : Nat)
    (h : l.Course parts (m₀.world.store.visit? v) m₀ runs (.going m)) :
    ∃ runs', l.Takes parts v m₀ (runs.length + rounds) runs'
      (l.remaining parts m₀.world.store v rounds runs.length m) := by
  induction rounds generalizing runs m with
  | zero => exact ⟨runs, .inr ⟨rfl, m, h, rfl⟩⟩
  | succ rounds ih =>
    cases hvisit : m₀.world.store.visit? v runs.length m.world.store with
    | none =>
      rw [remaining_of_none rounds hvisit]
      exact ⟨runs, .inl (h.exhausted hvisit)⟩
    | some step =>
      have hrun := h.run hvisit
      rw [remaining_of_some hnames rounds hvisit]
      cases hafter : Progress.after (l.outcome parts ⟨m, step⟩) with
      | going m' =>
        have hrest := ih (hafter ▸ hrun)
        rw [List.length_append, Nat.add_assoc, Nat.add_comm _ rounds] at hrest
        exact hrest
      | ended r => exact ⟨_, .inl (hafter ▸ hrun)⟩

/-- A loop over a value that can be visited. -/
lemma evalAction_eq (rounds : Nat) (hsubject : parts.expr l.scope l.subject m = .ok v m₀)
    (hv : (m₀.world.store.iteration? v).isSome) :
    parts.evalAction rounds l.scope l.action m =
      l.remaining parts m₀.world.store v rounds 0 m₀ := by
  have hiterate : parts.iterate v m₀ = .ok (m₀.world.store.walkFrom v 0) m₀ := by
    unfold Evaluator.iterate
    refine (EStateM.bind_of_ok (show Eval.store m₀ = .ok m₀.world.store m₀ from rfl)).trans ?_
    rw [Store.iteration?_eq hv]
    rfl
  refine (EStateM.bind_of_ok hsubject).trans ?_
  exact EStateM.bind_of_ok hiterate

/-- The runs so far are about what comes first in the snapshot, in order. -/
lemma Course.steps_eq {p : Progress} {steps : List (Value × Value)}
    (h : l.Course parts (s₀.visit? v) m₀ runs p) (hsteps : s₀.snapshot? v = some steps) :
    runs.map Run.step = steps.take runs.length ∧ runs.length ≤ steps.length := by
  induction h with
  | start => exact ⟨rfl, Nat.zero_le _⟩
  | @run runs m step _ hstep ih =>
    rw [Store.visit?_of_snapshot hsteps] at hstep
    obtain ⟨hlt, rfl⟩ := List.getElem?_eq_some_iff.mp hstep
    rw [List.map_append, List.length_append, ih.1]
    exact ⟨List.take_append_getElem hlt, hlt⟩
  | exhausted _ _ ih => exact ih

/-- Each run is about what there was to visit when it started. -/
lemma Course.visited {visit? : Nat → Store → Option (Value × Value)} {p : Progress} {u : Run}
    (h : l.Course parts visit? m₀ runs p) (hu : runs[k]? = some u) :
    visit? k u.start.world.store = some u.step := by
  induction h with
  | start => cases hu
  | @run runs m step _ hstep ih =>
    rcases Nat.lt_or_ge k runs.length with hk | hk
    · rw [List.getElem?_append_left hk] at hu
      exact ih hu
    · rw [List.getElem?_append_right hk] at hu
      obtain ⟨hlast, rfl⟩ := List.getElem?_eq_some_iff.mp hu
      have heq : k = runs.length := by
        rw [List.length_singleton] at hlast
        omega
      subst heq
      simpa only [Nat.sub_self, List.getElem_cons_zero] using hstep
  | exhausted _ _ ih => exact ih hu

/-- The first run starts where the loop does. -/
lemma Course.start_eq {visit? : Nat → Store → Option (Value × Value)} {p : Progress} {u : Run}
    (h : l.Course parts visit? m₀ runs p) (hu : runs.head? = some u) : u.start = m₀ := by
  induction h with
  | start => cases hu
  | @run runs m step hcourse _ ih =>
    cases runs with
    | nil =>
      cases hu
      generalize hruns : ([] : List Run) = runs, hp : Progress.going m = p at hcourse
      cases hcourse with
      | start =>
        cases hp
        rfl
      | run _ _ =>
        exact absurd hruns.symm (List.append_ne_nil_of_right_ne_nil _ (List.cons_ne_nil _ _))
      | exhausted _ _ => cases hp
    | cons _ _ => exact ih hu
  | exhausted _ _ ih => exact ih hu

/-! ### All that is visited -/

/-- The loop has not come to the end of its subject: it ends with its last run, by what the body
came to there, or it is given up. -/
def Cut (l : EachLoop) (parts : Evaluator) (rounds : Nat) (runs : List Run) (r : Outcome Value) :
    Prop :=
  (∃ u ∈ runs.getLast?, Progress.after (l.outcome parts u) = .ended r) ∨
    runs.length = rounds ∧ ∃ m, r = .error .unfinished m

/-- A loop that is not cut ends when there is nothing left to visit. -/
lemma Takes.cut_or {rounds : Nat} {r : Outcome Value} (h : l.Takes parts v m₀ rounds runs r) :
    l.Cut parts rounds runs r ∨
      ∃ m, r = .ok .null m ∧ m₀.world.store.visit? v runs.length m.world.store = none := by
  rcases h with hended | ⟨hrounds, m, _, hr⟩
  · generalize hp : Progress.ended r = p at hended
    cases hended with
    | start => cases hp
    | run _ _ => exact .inl (.inl ⟨_, List.getLast?_concat .., hp.symm⟩)
    | @exhausted runs m _ hnone =>
      cases hp
      exact .inr ⟨m, rfl, hnone⟩
  · exact .inl (.inr ⟨hrounds, m, hr⟩)

lemma Takes.exists_course {rounds : Nat} {r : Outcome Value}
    (h : l.Takes parts v m₀ rounds runs r) :
    ∃ p, l.Course parts (m₀.world.store.visit? v) m₀ runs p := by
  rcases h with hended | ⟨_, m, hgoing, _⟩
  · exact ⟨_, hended⟩
  · exact ⟨_, hgoing⟩

/-- **What a loop over a value visits**, whatever its body does. Of a text or a dictionary it visits
what there was at the start, in order; of a list, in each run, the position that is due as the list
is then. If the loop is not cut it ends with `null`, when it has visited all there is. -/
structure Visits (l : EachLoop) (parts : Evaluator) (v : Value) (m₀ : Machine) (rounds : Nat)
    (runs : List Run) (r : Outcome Value) : Prop where
  takes : l.Takes parts v m₀ rounds runs r
  snapshot {steps : List (Value × Value)} : m₀.world.store.snapshot? v = some steps →
    runs.map Run.step <+: steps ∧
      (l.Cut parts rounds runs r ∨ runs.map Run.step = steps ∧ ∃ m, r = .ok .null m)
  live {q : Ref .list} : v = .list q →
    (∀ (k : Nat) (u : Run), runs[k]? = some u → ∃ e,
      (u.start.world.store.list q)[k]? = some e ∧ u.step = (.int (Int64.ofNat k), e)) ∧
      (l.Cut parts rounds runs r ∨
        ∃ m, r = .ok .null m ∧ (m.world.store.list q).length ≤ runs.length)

lemma Takes.visits {rounds : Nat} {r : Outcome Value} (h : l.Takes parts v m₀ rounds runs r) :
    l.Visits parts v m₀ rounds runs r := by
  obtain ⟨p, hcourse⟩ := h.exists_course
  refine ⟨h, fun {steps} hsteps => ?_, fun {q} hq => ?_⟩
  · obtain ⟨htake, hle⟩ := hcourse.steps_eq hsteps
    refine ⟨htake ▸ List.take_prefix .., h.cut_or.imp_right ?_⟩
    rintro ⟨m, hr, hnone⟩
    rw [Store.visit?_of_snapshot hsteps] at hnone
    have hall : runs.length = steps.length :=
      Nat.le_antisymm hle (List.getElem?_eq_none_iff.mp hnone)
    exact ⟨by rw [htake, hall, List.take_length], m, hr⟩
  · subst hq
    refine ⟨fun k u hu => ?_, h.cut_or.imp_right ?_⟩
    · obtain ⟨e, he, hstep⟩ := Option.map_eq_some_iff.mp (hcourse.visited hu)
      exact ⟨e, he, hstep.symm⟩
    · rintro ⟨m, hr, hnone⟩
      exact ⟨m, hr, List.getElem?_eq_none_iff.mp (Option.map_eq_none_iff.mp hnone)⟩

end EachLoop

end Wei
