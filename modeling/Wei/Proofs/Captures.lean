import Wei.Proofs.Attribution
import Wei.Proofs.ScopeTree
import Wei.Proofs.Visits

/-!
The runs of a loop over a subject do not see each other's targets. Each run has a scope of its own,
which is made for it inside of the scope of the loop. No scope lies inside of those of two runs, and
so no name leads from the one to a target of the other.

A function that is made in a run stays with the code that makes it. If that is the body of the loop,
the function lies inside of the scope of the run, and sees no other run. If the body has called a
function that makes it, the new function lies where the called one lies, and sees the targets that
the called one sees. Those may be the targets of an earlier run, in which the called function was
made.
-/

namespace Wei

/-! ### No scope lies in two runs -/

namespace Store

variable {s : Store} {a b c q scope : Ref .scope}

/-- The walk outwards goes to older scopes. -/
lemma index_le_of_mem_chain (h : q ∈ s.chain c) : q.index ≤ c.index := by
  fun_induction s.chain c with
  | case1 c ih =>
    rcases List.mem_cons.mp h with rfl | h
    · exact Nat.le_refl _
    · split at h
      · cases h
      · next outer _ =>
        split at h
        · next hlt => exact Nat.le_trans (ih outer hlt h) (Nat.le_of_lt hlt)
        · cases h

/-- Two scopes inside of the same one, both younger than that, have no scope inside of them in
common. -/
lemma not_mem_chain_of_sibling (hscope : scope.index < a.index) (hab : a.index < b.index)
    (hb : (s.scope b).outer = some scope) (ha : a ∈ s.chain c) : b ∉ s.chain c := by
  fun_induction s.chain c with
  | case1 c ih =>
    intro hmem
    rcases List.mem_cons.mp hmem with rfl | houtwards
    · -- outwards of the younger one there is the scope around it, and older ones
      rw [hb] at ha
      rcases List.mem_cons.mp ha with rfl | ha
      · exact Nat.lt_irrefl _ hab
      · dsimp only at ha
        split at ha
        · exact absurd (index_le_of_mem_chain ha) (Nat.not_le.mpr hscope)
        · cases ha
    · split at houtwards
      · cases houtwards
      · next outer houter =>
        rw [houter] at ha
        dsimp only at ha
        split at houtwards
        · next hlt =>
          rw [if_pos hlt] at ha
          rcases List.mem_cons.mp ha with rfl | ha
          · have hle := index_le_of_mem_chain houtwards
            omega
          · exact ih outer hlt ha houtwards
        · cases houtwards

/-- A scope that lies in another one has that on its way outwards. -/
lemma OutersFirst.mem_chain (hs : s.OutersFirst) (h : s.Lies c q) : q ∈ s.chain c := by
  induction h using Relation.ReflTransGen.head_induction_on with
  | refl =>
    rw [chain]
    exact List.mem_cons_self
  | head hstep _ ih =>
    rw [hs.chain_eq hstep.2]
    exact List.mem_cons_of_mem _ ih

/-- What has a scope around it is there. -/
lemma around_of_outer (h : (s.scope c).outer = some q) : s.Around c q := by
  refine ⟨Nat.lt_of_not_le fun hge => ?_, h⟩
  have hdefault : s.scope c = default := Arena.get_of_size_le _ hge
  rw [hdefault] at h
  cases h

/-- A scope lies in whatever is on its way outwards. -/
lemma lies_of_mem_chain (h : q ∈ s.chain c) : s.Lies c q := by
  fun_induction s.chain c with
  | case1 c ih =>
    rcases List.mem_cons.mp h with rfl | h
    · exact .refl
    · split at h
      · cases h
      · next outer houter =>
        split at h
        · next hlt => exact .head (around_of_outer houter) (ih outer hlt h)
        · cases h

lemma OutersFirst.mem_chain_iff (hs : s.OutersFirst) : q ∈ s.chain c ↔ s.Lies c q :=
  ⟨lies_of_mem_chain, hs.mem_chain⟩

lemma OutersFirst.index_le (hs : s.OutersFirst) (h : s.Lies c q) : q.index ≤ c.index :=
  index_le_of_mem_chain (hs.mem_chain h)

/-- There is one way outwards. -/
lemma around_rightUnique (s : Store) : Relator.RightUnique s.Around :=
  fun _ _ _ h h' => Option.some.inj (h.2.symm.trans h'.2)

/-- Of two scopes on one way outwards, one lies in the other. -/
lemma Lies.total (ha : s.Lies c a) (hb : s.Lies c b) : s.Lies a b ∨ s.Lies b a :=
  Relation.ReflTransGen.total_of_right_unique s.around_rightUnique ha hb

/-- What is on the way from one scope to another, and not the other, is neither among the first
scopes nor made later. -/
lemma Enters.eq_or_between {s₀ : Store} {n : Nat} (h : s₀.Enters n c a) (hs : s₀.Extends s)
    (hfirst : s.OutersFirst) (hc : s.Lies c b) (hb : s.Lies b a) :
    b = a ∨ n ≤ b.index ∧ b.index < s₀.scopes.size := by
  induction h using Relation.ReflTransGen.head_induction_on with
  | refl =>
    have hle := hfirst.index_le hb
    have hge := hfirst.index_le hc
    exact .inl (Ref.index_inj.mp (Nat.le_antisymm hge hle))
  | @head c c' hstep _ ih =>
    cases hc using Relation.ReflTransGen.head_induction_on with
    | refl => exact .inr ⟨hstep.1, hstep.2.1⟩
    | head hout hc =>
      have heq := s.around_rightUnique hout (hs.around hstep.2)
      exact ih (heq ▸ hc)

end Store

/-! ### From one run to the next -/

namespace Evaluator.Keeping

variable {parts : Evaluator}

/-- What can be read off a block. -/
lemma reading_block (hparts : parts.Keeping) (scope : Ref .scope) (body : List Stmt) (m : Machine) :
    parts.Reading (fun ps => ps.block scope body) m
      (.reciting (m.nesting scope) ⟨m.world.store.scopes.size⟩ body)
      ((m.nesting scope).Recites ⟨m.world.store.scopes.size⟩ body) :=
  reading_of_plan hparts (.block m scope body)

/-- A block leaves the frames and the module as they were, and has extended the store. -/
lemma block (hparts : parts.Keeping) (scope : Ref .scope) (body : List Stmt) (m : Machine) :
    m.Leaves Machine.Onward (parts.block scope body m) := by
  have hnest := (m.steady_nesting scope).onward
  rcases (hparts.reading_block scope body m).ends with
    ⟨h, t, m', u, e, m₁, e', m₂, ⟨⟨s, hs, rfl, hm', _⟩, rfl⟩, _, _, hrun, hu, _, hends⟩ |
    ⟨h, hr, _⟩
  · rw [hends]
    have hkeeps : m'.Leaves Machine.Onward (.error e m₁ : Outcome Value) := by
      have hkeeps := hparts (.stmt ⟨m.world.store.scopes.size⟩ s) m'
      rw [hrun] at hkeeps
      exact hkeeps
    cases hu
    exact (hnest.trans hm').leaves_exit hkeeps.noting
  · obtain ⟨v, m', hblock⟩ := hr.answers
    have honward := hr.onward
    rw [hblock] at honward ⊢
    exact hnest.trans honward

/-- What has come into the stock while a block went through some of its statements has come in one
of them. -/
lemma exists_of_since (T : Stock → Prop) {scope : Ref .scope} {body : List Stmt} {m : Machine}
    {h : List Query} {σ : Stock} (hsince : parts.Since (fun ps => ps.block scope body) m
      (.reciting (m.nesting scope) ⟨m.world.store.scopes.size⟩ body) h σ)
    (hnot : ¬ T m.stock) (hσ : T σ) :
    ∃ s ∈ body, ∃ m', parts.Evaluates (fun ps => ps.block scope body) m
        (.stmt ⟨m.world.store.scopes.size⟩ s) m' ∧
      (m.nesting scope).Onward m' ∧ ¬ T m'.stock ∧
        T (parts.stmt ⟨m.world.store.scopes.size⟩ s m').state.stock := by
  rcases hsince.traces T hσ with hm | ⟨⟨t, m', r⟩, hq, hbefore, hafter⟩ | ⟨_, _, _, _, halters, _⟩
  · exact absurd hm hnot
  · have hpass := hsince.passes _ hq
    obtain ⟨_, _, ⟨⟨s, hs, rfl, hm', _⟩, _⟩, _⟩ := hpass.goes
    have hrun : parts.stmt ⟨m.world.store.scopes.size⟩ s m' = r := hpass.run
    exact ⟨s, hs, m', hpass.evaluates, hm', hbefore, hrun ▸ hafter⟩
  · exact halters.elim

/-- What has come into the stock in a block has come in one of its statements. -/
lemma exists_of_block (hparts : parts.Keeping) (T : Stock → Prop) {scope : Ref .scope}
    {body : List Stmt} {m : Machine} (hnot : ¬ T m.stock)
    (hT : T (parts.block scope body m).state.stock) :
    ∃ s ∈ body, ∃ m', parts.Evaluates (fun ps => ps.block scope body) m
        (.stmt ⟨m.world.store.scopes.size⟩ s) m' ∧
      (m.nesting scope).Onward m' ∧ ¬ T m'.stock ∧
        T (parts.stmt ⟨m.world.store.scopes.size⟩ s m').state.stock := by
  rcases (hparts.reading_block scope body m).ends with
    ⟨h, t, m', u, e, m₁, e', m₂, ⟨⟨s, hs, rfl, hm', _⟩, rfl⟩, hsince, heval, hrun, _, hworld,
      hends⟩ | ⟨h, _, hsince, _⟩
  · by_cases hbefore : T m'.stock
    · exact exists_of_since T hsince hnot hbefore
    · -- it has come in the statement that made the block exit
      refine ⟨s, hs, m', heval, hm', hbefore, ?_⟩
      have hrun' : parts.stmt ⟨m.world.store.scopes.size⟩ s m' = .error e m₁ := hrun
      have hstate : (parts.block scope body m).state = m₂ := congrArg EStateM.Result.state hends
      rw [hstate, Machine.stock, hworld] at hT
      rw [hrun']
      exact hT
  · exact exists_of_since T hsince hnot hT

end Evaluator.Keeping

namespace EachLoop

variable {l : EachLoop} {parts : Evaluator} {m₀ m : Machine} {runs : List Run} {u : Run}
  {visit? : Nat → Store → Option (Value × Value)}

/-- Making the scope of a run extends the store. -/
lemma steady_bound (l : EachLoop) (u : Run) : u.start.Steady (l.bound u) :=
  ⟨rfl, rfl, rfl, (Store.SameCode.pushScope u.start.world.store _).extends'⟩

/-- The scope of a run lies in that of the loop. -/
lemma around_bound (l : EachLoop) (u : Run) : (l.bound u).world.store.Around u.own l.scope := by
  constructor
  · show u.start.world.store.scopes.size < (u.start.world.store.scopes.push _).size
    rw [Arena.size_push]
    exact Nat.lt_succ_self _
  · exact congrArg Scope.outer (Arena.get_push_size ..)

/-- A loop that goes on does so from the state in which the run has ended. -/
lemma state_of_going {r : Outcome Value} (h : Progress.after r = .going m) : r.state = m := by
  cases r with
  | ok v m' =>
    cases h
    rfl
  | error e m' =>
    cases e with
    | continuing =>
      cases h
      rfl
    | _ => cases h

/-- The run has come to the state from which the loop goes on. -/
lemma onward_of_going (hparts : parts.Keeping)
    (h : Progress.after (l.outcome parts u) = .going m) : (l.bound u).Onward m := by
  have hleaves : (l.bound u).Leaves Machine.Onward (l.outcome parts u) :=
    hparts.block u.own l.body (l.bound u)
  generalize l.outcome parts u = r at h hleaves
  cases r with
  | ok v m' =>
    cases h
    exact hleaves
  | error e m' =>
    cases e with
    | continuing =>
      cases h
      exact hleaves
    | _ => cases h

/-- The run comes before a state: it has started and ended before. -/
structure Before (l : EachLoop) (parts : Evaluator) (u : Run) (m : Machine) : Prop where
  bound : (l.bound u).Onward m
  outcome : (l.outcome parts u).state.Onward m

lemma Before.trans {m' : Machine} (h : l.Before parts u m) (hm : m.Onward m') :
    l.Before parts u m' :=
  ⟨h.bound.trans hm, h.outcome.trans hm⟩

/-- The state of a loop that goes on comes after the one in which it started and after its runs. -/
lemma Course.onward (hparts : parts.Keeping) {p : Progress}
    (h : l.Course parts visit? m₀ runs p) (hp : p = .going m) :
    m₀.Onward m ∧ ∀ u ∈ runs, l.Before parts u m := by
  induction h generalizing m with
  | start =>
    cases hp
    exact ⟨.refl _, fun _ hu => absurd hu List.not_mem_nil⟩
  | @run runs m₁ step _ _ ih =>
    have hrun := onward_of_going hparts hp
    have hstep : m₁.Onward m := ((l.steady_bound ⟨m₁, step⟩).onward).trans hrun
    obtain ⟨hm₀, hruns⟩ := ih rfl
    refine ⟨hm₀.trans hstep, fun u hu => ?_⟩
    rcases List.mem_append.mp hu with hu | hu
    · exact (hruns u hu).trans hstep
    · obtain rfl := List.mem_singleton.mp hu
      exact ⟨hrun, state_of_going hp ▸ .refl _⟩
  | exhausted => cases hp

/-- **Runs come one after the other**, and after the start of the loop. -/
lemma Course.pairwise (hparts : parts.Keeping) {p : Progress}
    (h : l.Course parts visit? m₀ runs p) :
    (∀ u ∈ runs, m₀.Onward u.start) ∧ runs.Pairwise fun a b => l.Before parts a b.start := by
  induction h with
  | start => exact ⟨fun _ hu => absurd hu List.not_mem_nil, .nil⟩
  | @run runs m₁ step hcourse _ ih =>
    obtain ⟨hm₀, hruns⟩ := hcourse.onward hparts rfl
    refine ⟨fun u hu => ?_, List.pairwise_append.mpr ⟨ih.2, List.pairwise_singleton _ _, ?_⟩⟩
    · rcases List.mem_append.mp hu with hu | hu
      · exact ih.1 u hu
      · obtain rfl := List.mem_singleton.mp hu
        exact hm₀
    · intro a ha b hb
      obtain rfl := List.mem_singleton.mp hb
      exact hruns a ha
  | exhausted _ _ ih => exact ih

/-- **No name leads from the one run to a target of the other**, in whatever store that extends the
one in which the later of them has its scope. -/
def Apart (l : EachLoop) (a b : Run) : Prop :=
  a.own.index < b.own.index ∧ ∀ s, (l.bound b).world.store.Extends s → ∀ c x,
    (a.own ∈ s.chain c → s.holder? c x ≠ some b.own) ∧
      (b.own ∈ s.chain c → s.holder? c x ≠ some a.own)

/-- The scope of the second run has been made before that of the first, or when the first had ended.
-/
def Clear (l : EachLoop) (parts : Evaluator) (u b : Run) : Prop :=
  b.own.index ≤ u.own.index ∨ (l.outcome parts u).state.world.store.scopes.size ≤ b.own.index

lemma Course.clear (hparts : parts.Keeping) {p : Progress} (h : l.Course parts visit? m₀ runs p) :
    ∀ u ∈ runs, ∀ b ∈ runs, l.Clear parts u b := by
  have hpairs := (h.pairwise hparts).2
  have hlater : runs.Pairwise (l.Clear parts) := hpairs.imp fun hab => .inr hab.outcome.store.scopes
  have hearlier : runs.Pairwise (flip (l.Clear parts)) := hpairs.imp fun {a _} hab =>
    .inl (Nat.le_of_lt (Nat.lt_of_lt_of_le (l.around_bound a).1 hab.bound.store.scopes))
  intro u hu b hb
  exact hlater.forall_of_forall_of_flip (fun _ _ => .inl (Nat.le_refl _)) hearlier hu hb

/-- Two runs of a loop are apart. -/
lemma Course.apart (hparts : parts.Keeping) {p : Progress}
    (hscope : l.scope.index < m₀.world.store.scopes.size)
    (h : l.Course parts visit? m₀ runs p) : runs.Pairwise l.Apart := by
  obtain ⟨hstart, hpairs⟩ := h.pairwise hparts
  refine hpairs.imp_of_mem fun {a b} ha hb hab => ?_
  have hown : a.own.index < b.own.index :=
    Nat.lt_of_lt_of_le (l.around_bound a).1 hab.bound.store.scopes
  have hold : l.scope.index < a.own.index :=
    Nat.lt_of_lt_of_le hscope (hstart a ha).store.scopes
  refine ⟨hown, fun s hs c x => ?_⟩
  have hsibling := (hs.around (l.around_bound b)).2
  refine ⟨fun hmem hholder => ?_, fun hmem hholder => ?_⟩
  · exact Store.not_mem_chain_of_sibling hold hown hsibling hmem
      (List.mem_of_find?_eq_some hholder)
  · exact Store.not_mem_chain_of_sibling hold hown hsibling
      (List.mem_of_find?_eq_some hholder) hmem

/-- The same for any two runs that do not have the same scope. -/
lemma holder?_ne_of_apart (h : runs.Pairwise l.Apart) {a b : Run} (ha : a ∈ runs) (hb : b ∈ runs)
    (hne : b.own ≠ a.own) {s : Store} (hsa : (l.bound a).world.store.Extends s)
    (hsb : (l.bound b).world.store.Extends s) {c : Ref .scope} (hc : a.own ∈ s.chain c)
    (x : String) : s.holder? c x ≠ some b.own := by
  obtain ⟨i, hi, rfl⟩ := List.getElem_of_mem ha
  obtain ⟨j, hj, rfl⟩ := List.getElem_of_mem hb
  rcases Nat.lt_trichotomy i j with hij | rfl | hji
  · exact ((List.pairwise_iff_getElem.mp h i j hi hj hij).2 s hsb c x).1 hc
  · exact absurd rfl hne
  · exact ((List.pairwise_iff_getElem.mp h j i hj hi hji).2 s hsa c x).2 hc

end EachLoop

/-! ### Functions that a run makes -/

/-- A part is evaluated when the store has been extended. -/
lemma Part.store_extends {host : Host} {t t' : Task} {m m' : Machine} {h : List Query}
    {u : Reaction} (hpart : Part host t m h t' m' u) :
    m.world.store.Extends m'.world.store := by
  cases hpart with
  | expr _ hm => exact hm.store
  | name _ _ => exact .refl _
  | parent _ => exact .refl _
  | again _ _ _ hm => exact hm.store
  | member _ _ hm _ => exact hm.store
  | walk _ hm => exact hm.store
  | stmt _ _ hm _ _ => exact hm.store
  | call _ hm hcalls => exact hm.store.trans hcalls.store
  | text _ _ hm himports => exact hm.store.trans himports.activates.store

/-- A stack keeps its frames when their lines change. -/
lemma CallStack.SameButLine.frames_ne_nil {s t : CallStack} (h : s.SameButLine t)
    (hs : s.frames ≠ []) : t.frames ≠ [] := by
  intro ht
  have horigins := h.origins
  rw [ht] at horigins
  exact hs (List.map_eq_nil_iff.mp horigins.symm)

namespace Evaluator

variable {host : Host} {rounds depth depth' : Nat} {t t' : Task} {m m' : Machine}
  {as as' : List Activation}

/-- Where no activation comes in front, the codes that are activated stay. -/
lemma Opens.scopes_eq {parts : Evaluator} (h : parts.Opens host rounds t m as t' m' as')
    (hlength : as'.length = as.length) :
    as'.map Activation.scope = as.map Activation.scope := by
  cases h with
  | call _ _ => exact absurd hlength (Nat.succ_ne_self _)
  | text _ _ _ _ _ => exact absurd hlength (Nat.succ_ne_self _)
  | _ => rfl

lemma Trail.scopes_eq (h : Trail host rounds depth t m as depth' t' m' as')
    (hlength : as'.length = as.length) :
    as'.map Activation.scope = as.map Activation.scope := by
  induction h with
  | self _ _ _ _ => rfl
  | declaring _ => rfl
  | part _ hopens htrail ih =>
    -- activations only come, so none has come on either part of the way
    have hfirst := hopens.length_le
    have hrest := htrail.length_le
    exact (ih (by omega)).trans (hopens.scopes_eq (by omega))

/-- No activation on a trail is older than the first ones and the state in which the trail starts.
-/
lemma Trail.le_since {n : Nat} (h : Trail host rounds depth t m as depth' t' m' as')
    (hm : n ≤ m.world.store.scopes.size) (has : ∀ a ∈ as, n ≤ a.since) :
    ∀ a ∈ as', n ≤ a.since := by
  induction h with
  | self _ _ _ _ => exact has
  | declaring _ =>
    obtain ⟨ha, has⟩ := List.forall_mem_cons.mp has
    exact List.forall_mem_cons.mpr ⟨ha, has⟩
  | @part depth _ t _ _ m _ _ _ _ _ hpart hopens _ ih =>
    obtain ⟨_, _, hasks, _⟩ :=
      ((ofDepth_keeping host rounds depth).reading host rounds t m).asks hpart
    refine ih (hm.trans (Part.store_extends hasks).scopes) ?_
    cases hopens with
    | call _ _ => exact List.forall_mem_cons.mpr ⟨hm, has⟩
    | text _ _ _ _ _ => exact List.forall_mem_cons.mpr ⟨hm, has⟩
    | same _ _ => exact has
    | name _ => exact has
    | parent _ => exact has
    | again _ _ _ =>
      obtain ⟨ha, has⟩ := List.forall_mem_cons.mp has
      exact List.forall_mem_cons.mpr ⟨ha, has⟩
    | member _ _ =>
      obtain ⟨ha, has⟩ := List.forall_mem_cons.mp has
      exact List.forall_mem_cons.mpr ⟨ha, has⟩
    | stmt _ _ =>
      obtain ⟨ha, has⟩ := List.forall_mem_cons.mp has
      exact List.forall_mem_cons.mpr ⟨ha, has⟩

/-- What is evaluated inside of a task is evaluated when the store has been extended. -/
lemma Reaches.store_extends (h : Reaches (load host) rounds depth t m depth' t' m') :
    m.world.store.Extends m'.world.store := by
  induction h with
  | self _ _ _ => exact .refl _
  | @part depth _ t _ _ m _ _ hpart _ ih =>
    obtain ⟨_, _, hasks, _⟩ :=
      ((ofDepth_keeping host rounds depth).reading host rounds t m).asks hpart
    exact (Part.store_extends hasks).trans ih

end Evaluator

namespace EachLoop

variable {l : EachLoop} {host : Host} {rounds depth : Nat} {u : Run} {c : Closure} {m : Machine}
  {as : List Activation}

/-- What a frame is taken for in a run: as if a host had the body evaluated in the scope of the run,
once that is there. -/
def Run.activation (u : Run) (f : Frame) : Activation :=
  ⟨.node u.start.module, f.path, f.function, u.own, u.own.index + 1, none, false⟩

/-- The activations in a run. Of what is around it only the frames are told. -/
def Run.activations (u : Run) : List Activation := u.start.stack.frames.map u.activation

/-- **A function is made in a run**: a trail leads from a statement of the body to a task that makes
it, in this state and in these activations. -/
inductive Makes (l : EachLoop) (host : Host) (rounds depth : Nat) (u : Run) (c : Closure)
    (m : Machine) (as : List Activation) : Prop
  | intro {s : Stmt} {m₁ m' : Machine} {depth' : Nat} {t : Task} : s ∈ l.body →
    (Evaluator.ofDepth (Evaluator.load host) rounds depth).Evaluates
      (fun ps => ps.block u.own l.body) (l.bound u)
      (.stmt ⟨(l.bound u).world.store.scopes.size⟩ s) m₁ →
    Evaluator.Trail host rounds depth (.stmt ⟨(l.bound u).world.store.scopes.size⟩ s) m₁
      u.activations depth' t m' as →
    m'.Onward m → t.Makes m as c → Makes l host rounds depth u c m as

/-- The text of the body makes the function itself, and does not call for it: no function has been
called on the way, and no text has been loaded. -/
def Run.Itself (u : Run) (as : List Activation) : Prop := as.length = u.activations.length

/-- The activations tell of the states in which the statements of the body are evaluated. -/
lemma stands_of_onward (hframes : u.start.stack.frames ≠ []) (s : Stmt)
    (hm : ((l.bound u).nesting u.own).Onward m) :
    ∃ a as, u.activations = a :: as ∧
      (Task.stmt ⟨(l.bound u).world.store.scopes.size⟩ s).Stands m a as := by
  obtain ⟨f, rest, hf⟩ := List.exists_cons_of_ne_nil hframes
  have hactivations : u.activations = _ := congrArg (List.map _) hf
  have hfits : List.Forall₂ Activation.Fits u.activations u.start.stack.frames :=
    List.forall₂_map_left_iff.mpr
      (List.forall₂_same.mpr fun _ _ => ⟨rfl, rfl, fun hs => by cases hs⟩)
  rw [hactivations] at hfits
  obtain ⟨f', rest', hframes', hpath, hfunction, hrest⟩ :=
    Activation.fits_of_onward hfits (show u.start.stack.SameButLine m.stack from hm.stack)
  have hsize : (l.bound u).world.store.scopes.size = u.own.index + 1 := Arena.size_push ..
  have honward := ((l.bound u).steady_nesting u.own).store.trans hm.store
  refine ⟨_, _, hactivations, ?_, hm.module, fun a ha => ?_, ?_, fun heq => ?_⟩
  · rw [hframes']
    exact .cons ⟨hpath, hfunction, fun hs => by cases hs⟩ hrest
  · rw [← List.map_cons (f := u.activation)] at ha
    obtain ⟨_, _, rfl⟩ := List.mem_map.mp ha
    exact ⟨fun h => (by cases h), fun h => by cases h⟩
  · show u.own.index + 1 ≤ _
    rw [← hsize]
    exact honward.scopes
  · cases heq
    have hle : u.own.index + 1 ≤ (l.bound u).world.store.scopes.size := hsize.ge
    exact ⟨hle, hm.store.enters (.single hle ((l.bound u).around_nesting u.own))⟩

/-- The state after a run comes after those in which the statements of the body end. -/
lemma extends_outcome {s : Stmt} (heval : (Evaluator.ofDepth (Evaluator.load host) rounds
      depth).Evaluates (fun ps => ps.block u.own l.body) (l.bound u)
      (.stmt ⟨(l.bound u).world.store.scopes.size⟩ s) m) :
    (((Evaluator.ofDepth (Evaluator.load host) rounds depth).run
        (.stmt ⟨(l.bound u).world.store.scopes.size⟩ s)).after m).world.store.Extends
      (l.outcome (.ofDepth (Evaluator.load host) rounds depth) u).state.world.store := by
  have h := heval.extends_after (Evaluator.ofDepth_extending host rounds depth)
    fun _ _ hq => hq.block u.own l.body
  rw [EStateM.after_eq_state] at h
  exact h

/-- Every function that there is after a run and was not before has been made in the run. Between
its scope and that of the code which made it there are only scopes that were made in the run. -/
lemma exists_makes (l : EachLoop) (host : Host) (rounds depth : Nat)
    (hframes : u.start.stack.frames ≠ []) {f : Ref .function} {m' : Machine}
    (hm' : (l.outcome (.ofDepth (Evaluator.load host) rounds depth) u).state = m')
    (hnew : u.start.world.store.functions.size ≤ f.index)
    (hlt : f.index < m'.world.store.functions.size) :
    ∃ m a as, l.Makes host rounds depth u (m'.world.store.function f) m (a :: as) ∧
      u.own.index < (m'.world.store.function f).scope.index ∧
      m'.world.store.Enters (u.own.index + 1) (m'.world.store.function f).scope a.scope := by
  subst hm'
  let T (σ : Stock) : Prop := f.index < σ.functions.size ∧ σ.functions.get f.index =
    (l.outcome (.ofDepth (Evaluator.load host) rounds depth) u).state.world.store.function f
  have hbefore : ¬ T (l.bound u).stock := fun hold => absurd hold.1 (Nat.not_lt.mpr hnew)
  obtain ⟨s, hs, m₁, heval, hm₁, hnot, hafter⟩ :=
    (Evaluator.ofDepth_keeping host rounds depth).exists_of_block T hbefore ⟨hlt, rfl⟩
  obtain ⟨a, as, hactivations, hstands⟩ := stands_of_onward hframes s hm₁
  have hchange := Evaluator.exists_altered T depth hstands hnot hafter
  obtain @⟨depth', t, m₀, a', as', _, _, _, htrail, hstands', _, halters, hnot', hmade, _⟩ :=
    hchange
  obtain ⟨m₂, hm₂, hmakes⟩ := halters.makes hstands' hnot' hmade
  have hsince : ∀ b ∈ a' :: as', u.own.index + 1 ≤ b.since := by
    refine htrail.le_since ?_ fun b hb => ?_
    · have hsize : (l.bound u).world.store.scopes.size = u.own.index + 1 := Arena.size_push ..
      exact hsize ▸ (((l.bound u).steady_nesting u.own).store.trans hm₁.store).scopes
    · rw [← hactivations] at hb
      obtain ⟨_, _, rfl⟩ := List.mem_map.mp hb
      exact Nat.le_refl _
  obtain ⟨hle, henters⟩ := hstands'.enters hmakes.scope
  have hsince := hsince a' List.mem_cons_self
  have hend := (Evaluator.ofDepth_extending host rounds (depth' + 1) t m₀).trans
    (htrail.reaches.extends_after.trans (extends_outcome heval))
  exact ⟨m₂, a', as', .intro hs heval (hactivations ▸ htrail) hm₂ hmakes, hsince.trans hle,
    hend.enters (henters.mono hsince)⟩

/-- **A function that the body makes itself stays in the run**: whatever lies in the scope of the
function has the scope of the run on its way outwards. -/
lemma Makes.own_mem_chain (h : l.Makes host rounds depth u c m as) (hself : u.Itself as)
    (hne : u.activations ≠ []) {s : Store} (hs : m.world.store.Extends s) (hfirst : s.OutersFirst)
    {q : Ref .scope} (hq : s.Lies q c.scope) : u.own ∈ s.chain q := by
  cases h with
  | intro _ _ htrail _ hmakes =>
    have hscopes := htrail.scopes_eq hself
    obtain ⟨a₀, as₀, has₀⟩ := List.exists_cons_of_ne_nil hne
    have ha₀ : a₀.scope = u.own := by
      obtain ⟨_, _, rfl⟩ := List.mem_map.mp (show a₀ ∈ u.activations from has₀ ▸ List.mem_cons_self)
      rfl
    rw [has₀] at hscopes
    cases as with
    | nil => cases hscopes
    | cons a as =>
      have ha : a.scope = u.own := (List.cons.inj hscopes).1.trans ha₀
      have hlies := hs.lies (hmakes.lies a rfl)
      exact hfirst.mem_chain (hq.trans (ha ▸ hlies))

/-- A function is made when the run has its scope. -/
lemma Makes.store_extends (h : l.Makes host rounds depth u c m as) :
    (l.bound u).world.store.Extends m.world.store := by
  cases h with
  | intro _ heval htrail hm _ =>
    have hparts := Evaluator.ofDepth_keeping host rounds depth
    obtain ⟨_, _, ⟨⟨_, _, _, hm₁, _⟩, _⟩, _⟩ :=
      (hparts.reading_block u.own l.body (l.bound u)).asks heval
    have hnest := ((l.bound u).steady_nesting u.own).store
    exact (hnest.trans hm₁.store).trans (htrail.reaches.store_extends.trans hm.store)

/-- **The function keeps to the run**, from the state on in which it is made. A scope inside of that
of the function, as each call of it has one, lies in the run, and no name leads from there to a
target of another run. -/
def KeepsTo (l : EachLoop) (runs : List Run) (u : Run) (m : Machine) (c : Closure) : Prop :=
  ∀ s q, m.world.store.Extends s → s.OutersFirst → s.Lies q c.scope → u.own ∈ s.chain q ∧
    ∀ b ∈ runs, b.own ≠ u.own → (l.bound b).world.store.Extends s → ∀ x,
      s.holder? q x ≠ some b.own

/-- **The function stays with the code that made it**, from a store on. A scope inside of that of
the function lies where the activated code lies, and it lies in a run exactly if that code does. So
a name leads from there to a target of the run only if the code lies in the run as well. -/
def StaysWith (l : EachLoop) (runs : List Run) (s₀ : Store) (c : Closure) (a : Activation) : Prop :=
  ∀ s q, s₀.Extends s → s.OutersFirst → s.Lies q c.scope → a.scope ∈ s.chain q ∧
    ∀ b ∈ runs, (l.bound b).world.store.Extends s → (b.own ∈ s.chain q ↔ b.own ∈ s.chain a.scope)

/-- What lies between the scope of a function and that of the code that made it has been made in the
run in which the function was made, and so it is the scope of no run. -/
lemma staysWith_of_enters {parts : Evaluator} {runs : List Run} {a : Activation} {s₀ : Store}
    (hs₀ : (l.outcome parts u).state.world.store = s₀) (hscope : l.scope.index < u.own.index)
    (hnew : u.own.index < c.scope.index) (henters : s₀.Enters (u.own.index + 1) c.scope a.scope)
    (hruns : ∀ b ∈ runs, l.Clear parts u b) : l.StaysWith runs s₀ c a := by
  intro s q hs hfirst hq
  have hway := (hs.enters henters).lies
  refine ⟨hfirst.mem_chain (hq.trans hway), fun b hb hbound => ?_⟩
  rw [hfirst.mem_chain_iff, hfirst.mem_chain_iff]
  refine ⟨fun hb' => ?_, fun hb' => (hq.trans hway).trans hb'⟩
  -- the run is not inside of the function: the loop is older than that
  have hc : s.Lies c.scope b.own := by
    rcases Store.Lies.total hq hb' with hc | hc
    · exact hc
    · rcases hc.cases_head with heq | ⟨d, hstep, hc⟩
      · exact heq ▸ .refl
      · have heq := s.around_rightUnique hstep (hbound.around (l.around_bound b))
        have hle := hfirst.index_le (heq ▸ hc)
        omega
  rcases Store.Lies.total hc hway with h | h
  · rcases henters.eq_or_between hs hfirst hc h with heq | ⟨hge, hlt⟩
    · exact heq ▸ .refl
    · rcases hruns b hb with hle | hle
      · omega
      · rw [hs₀] at hle
        omega
  · exact h

/-- **The runs of a loop do not see each other's targets.** They have different scopes, and no scope
lies in two of them. Every function that comes in a run has been made in the run, by a code that is
activated then, and stays with that code. Those that the body makes itself keep to the run. -/
structure Isolates (l : EachLoop) (host : Host) (rounds depth : Nat) (runs : List Run) : Prop where
  apart : runs.Pairwise l.Apart
  functions {u : Run} {m' : Machine} {f : Ref .function} : u ∈ runs →
    (l.outcome (.ofDepth (Evaluator.load host) rounds depth) u).state = m' →
    u.start.world.store.functions.size ≤ f.index → f.index < m'.world.store.functions.size →
    ∃ m a as, l.Makes host rounds depth u (m'.world.store.function f) m (a :: as) ∧
      l.StaysWith runs m'.world.store (m'.world.store.function f) a
  keeps {u : Run} {c : Closure} {m : Machine} {as : List Activation} : u ∈ runs →
    l.Makes host rounds depth u c m as → u.Itself as → l.KeepsTo runs u m c

lemma Course.isolates {visit? : Nat → Store → Option (Value × Value)} {m₀ : Machine}
    {runs : List Run} {p : Progress}
    (h : l.Course (.ofDepth (Evaluator.load host) rounds depth) visit? m₀ runs p)
    (hscope : l.scope.index < m₀.world.store.scopes.size) (hframes : m₀.stack.frames ≠ []) :
    l.Isolates host rounds depth runs := by
  have hparts := Evaluator.ofDepth_keeping host rounds depth
  have hapart := h.apart hparts hscope
  have hstart (u : Run) (hu : u ∈ runs) : u.start.stack.frames ≠ [] :=
    ((h.pairwise hparts).1 u hu).stack.frames_ne_nil hframes
  refine ⟨hapart, fun {u m' f} hu hm' hnew hlt => ?_,
    fun {u c m as} hu hmakes hself s q hs hfirst hq => ?_⟩
  · obtain ⟨m, a, as, hmakes, hown, henters⟩ :=
      l.exists_makes host rounds depth (hstart u hu) hm' hnew hlt
    have hold : l.scope.index < u.own.index :=
      Nat.lt_of_lt_of_le hscope ((h.pairwise hparts).1 u hu).store.scopes
    exact ⟨m, a, as, hmakes, staysWith_of_enters (congrArg (·.world.store) hm') hold hown henters
      (h.clear hparts u hu)⟩
  · have hne : u.activations ≠ [] := mt List.map_eq_nil_iff.mp (hstart u hu)
    have hown := hmakes.own_mem_chain hself hne hs hfirst hq
    refine ⟨hown, fun b hb hother hsb x => ?_⟩
    exact holder?_ne_of_apart hapart hu hb hother (hmakes.store_extends.trans hs) hsb hown x

/-- **A loop visits what it should, whatever its body does.** Let the subject of a loop with two
targets be a text, a list or a dictionary. Then the loop takes a course of runs, each with the
values that are due in the state in which it starts, until the body makes it end or there is nothing
left to visit. Each run binds the targets in a scope of its own. Functions that the body makes do
not see the targets of another run, and one that is made by a function which the body calls sees the
targets that the called function sees. -/
theorem loops_visit_their_subject (l : EachLoop) (host : Host) (rounds depth : Nat) (line : Int)
    {m m₀ : Machine} {v : Value} (hnames : l.first ≠ l.second)
    (hscope : l.scope.index < m.world.store.scopes.size) (hframes : m.stack.frames ≠ [])
    (hsubject : (Evaluator.ofDepth (Evaluator.load host) rounds depth).expr l.scope l.subject m =
      .ok v m₀)
    (hv : (m₀.world.store.iteration? v).isSome) :
    ∃ runs, l.Visits (.ofDepth (Evaluator.load host) rounds depth) v m₀ rounds runs
        ((Evaluator.ofDepth (Evaluator.load host) rounds (depth + 1)).stmt l.scope
          (.mk line l.action) m) ∧
      l.Isolates host rounds depth runs := by
  have hsteady : m.Steady m₀ := by
    have hkeeps := (Evaluator.ofDepth_keeping host rounds depth (.expr l.scope l.subject) m).steady
    rw [Evaluator.run, hsubject] at hkeeps
    exact hkeeps
  have hstart : l.Course (.ofDepth (Evaluator.load host) rounds depth) (m₀.world.store.visit? v)
      m₀ [] (.going m₀) := .start
  obtain ⟨runs, htakes⟩ := exists_takes hnames rounds hstart
  rw [List.length_nil, Nat.zero_add, ← evalAction_eq rounds hsubject hv] at htakes
  obtain ⟨p, hcourse⟩ := htakes.exists_course
  refine ⟨runs, htakes.visits, hcourse.isolates ?_ (hsteady.stack ▸ hframes)⟩
  exact Nat.lt_of_lt_of_le hscope hsteady.store.scopes

section Growing

/-- No file is there. -/
private def bareHost : Host := ⟨.empty ⟨["W"]⟩, fun _ _ => .program ⟨[]⟩, Text.line?⟩

/-- A module has been opened. -/
private def opened : Machine :=
  ((Engine.initial.newSession false .standard none).turn 0
    (Eval.openModule bareHost "main.wei")).2.machine 0

/-- The dictionary `d` has one entry. -/
private def growingStart : Machine :=
  ((Eval.evaluate bareHost ⟨20, 20⟩ (.stmt (.mk 1 (.declare "d"
    (some (.dict [(.literal (.str "a"), .literal (.int 1))])) false))) ⟨0⟩).after opened).atBottom

/-- Its body gives `d` another entry: a function that answers the key. -/
private def growingLoop : EachLoop :=
  ⟨⟨0⟩, "k", "v", .name "d", [.mk 3 (.assign (.item (.name "d") (.literal (.str "b")))
    (.function (.mk none [] [.mk 3 (.ret (some (.name "k")))])))], false⟩

private def growingParts : Evaluator := .ofDepth (Evaluator.load bareHost) 20 12

private def growingSubject : Outcome Value :=
  growingParts.expr growingLoop.scope growingLoop.subject growingStart

private def growingEnd : Outcome Value :=
  (Evaluator.ofDepth (Evaluator.load bareHost) 20 13).stmt growingLoop.scope
    (.mk 2 growingLoop.action) growingStart

private def answerOf : Outcome Value → Option Value
  | .ok v _ => some v
  | .error _ _ => none

private lemma eq_ok_of_answerOf {r : Outcome Value} {v : Value} (h : answerOf r = some v) :
    r = .ok v r.state := by
  cases r with
  | ok w m =>
    cases h
    rfl
  | error e m => cases h

/-- The one run that there is. -/
private def growingRun : Run := ⟨growingSubject.state, (.str "a", .int 1)⟩

private def growingFunction : Closure :=
  (growingLoop.outcome growingParts growingRun).state.world.store.function ⟨0⟩

/-- **A dictionary that its loop makes grow** is visited as it was: the body is run once, for the
one entry, though there are two in the end. The function that the other has was made in the run. -/
theorem growing_dictionary_is_visited_as_it_was :
    (growingEnd.state.world.store.dict ⟨0⟩).values.length = 2 ∧
      ∃ runs, runs = [growingRun] ∧
        growingLoop.Visits growingParts (.dict ⟨0⟩) growingSubject.state 20 runs growingEnd ∧
        growingLoop.Isolates bareHost 20 12 runs ∧
        ∃ m a as, growingLoop.Makes bareHost 20 12 growingRun growingFunction m (a :: as) ∧
          growingLoop.StaysWith runs
            (growingLoop.outcome growingParts growingRun).state.world.store growingFunction a := by
  have hentries : (growingEnd.state.world.store.dict ⟨0⟩).values.length = 2 := by decide +kernel
  have hsubject : growingSubject = .ok (.dict ⟨0⟩) growingSubject.state :=
    eq_ok_of_answerOf (by decide +kernel)
  have hscope : growingLoop.scope.index < growingStart.world.store.scopes.size := by decide +kernel
  have hframes : growingStart.stack.frames ≠ [] := List.cons_ne_nil _ _
  have hsteps : growingSubject.state.world.store.snapshot? (.dict ⟨0⟩) =
      some [(.str "a", .int 1)] := by decide +kernel
  have hnone : growingRun.start.world.store.functions.size = 0 := by decide +kernel
  have hone :
      (growingLoop.outcome growingParts growingRun).state.world.store.functions.size = 1 := by
    decide +kernel
  obtain ⟨runs, hvisits, hisolates⟩ := growingLoop.loops_visit_their_subject bareHost 20 12 2
    (by decide) hscope hframes hsubject rfl
  obtain ⟨hfirst, hall⟩ := hvisits.snapshot hsteps
  obtain ⟨p, hcourse⟩ := hvisits.takes.exists_course
  have hruns : runs = [growingRun] := by
    cases runs with
    | nil =>
      rcases hall with (⟨_, hu, _⟩ | ⟨hrounds, _⟩) | ⟨heq, _⟩
      · cases hu
      · cases hrounds
      · cases heq
    | cons u rest =>
      have heq := hfirst.eq_of_length_le (Nat.succ_le_succ (Nat.zero_le _))
      obtain ⟨hstep, hrest⟩ := List.cons.inj heq
      rw [List.map_eq_nil_iff.mp hrest, growingRun, ← hcourse.start_eq rfl, ← hstep]
  refine ⟨hentries, runs, hruns, hvisits, hisolates, ?_⟩
  refine hisolates.functions (hruns ▸ List.mem_singleton_self _) rfl ?_ ?_
  · rw [hnone]
  · exact Nat.lt_of_lt_of_eq Nat.zero_lt_one hone.symm

end Growing

section Factory

/-- In the first run the body makes a function that makes functions, and in the second it calls that
for another one. -/
private def factoryLoop : EachLoop where
  scope := ⟨0⟩
  first := "k"
  second := "v"
  subject := .list [.literal (.str "a"), .literal (.str "b")]
  body := [.mk 0 (.branch
    [(.binary .eq (.name "k") (.literal (.int 0)), [.mk 0 (.assign (.name "h")
      (.function (.mk none [] [.mk 0 (.ret (some
        (.function (.mk none [] [.mk 0 (.ret (some (.name "k")))]))))])))])]
    (some [.mk 0 (.assign (.name "g") (.call (.name "h") []))]))]
  constant := false

private def factoryDeclarations : List Stmt :=
  [.mk 1 (.declare "h" none false), .mk 2 (.declare "g" none false)]

/-- The variables `h` and `g` have been declared. -/
private def factoryStart : Machine :=
  ((Eval.evaluate bareHost ⟨20, 20⟩ (.program ⟨factoryDeclarations⟩) ⟨0⟩).after opened).atBottom

private def factoryParts : Evaluator := .ofDepth (Evaluator.load bareHost) 20 12

private def factorySubject : Outcome Value :=
  factoryParts.expr factoryLoop.scope factoryLoop.subject factoryStart

private def factoryFirst : Run := ⟨factorySubject.state, (.int 0, .str "a")⟩

private def factorySecond : Run :=
  ⟨(factoryLoop.outcome factoryParts factoryFirst).state, (.int 1, .str "b")⟩

private def factoryEnd : Machine := (factoryLoop.outcome factoryParts factorySecond).state

private lemma Course.run_of_answerOf {l : EachLoop} {parts : Evaluator}
    {visit? : Nat → Store → Option (Value × Value)} {m₀ m : Machine} {runs : List Run}
    {step : Value × Value} {v : Value} (h : l.Course parts visit? m₀ runs (.going m))
    (hstep : visit? runs.length m.world.store = some step)
    (hv : answerOf (l.outcome parts ⟨m, step⟩) = some v) :
    l.Course parts visit? m₀ (runs ++ [⟨m, step⟩])
      (.going (l.outcome parts ⟨m, step⟩).state) := by
  have hrun := h.run hstep
  rw [eq_ok_of_answerOf hv] at hrun
  exact hrun

/-- **A function that is made in one run may see a target of another one**, if the body has called
for it. The loop makes two runs. A function comes in the second of them, and its `k` is that of the
first. So the program that calls it in the end answers 0, and not 1. -/
theorem function_from_factory_sees_earlier_run :
    factoryLoop.Course factoryParts (factorySubject.state.world.store.visit? (.list ⟨0⟩))
        factorySubject.state [factoryFirst, factorySecond] (.going factoryEnd) ∧
      factoryFirst.own ≠ factorySecond.own ∧
      (∃ f : Ref .function, factorySecond.start.world.store.functions.size ≤ f.index ∧
        f.index < factoryEnd.world.store.functions.size ∧
        factoryEnd.world.store.holder? (factoryEnd.world.store.function f).scope "k" =
          some factoryFirst.own) ∧
      answerOf (Eval.evaluate bareHost ⟨20, 20⟩ (.program ⟨factoryDeclarations ++
        [.mk 3 factoryLoop.action, .mk 4 (.eval (.call (.name "g") []))]⟩) ⟨0⟩ opened) =
          some (.int 0) := by
  refine ⟨?_, by decide +kernel, ⟨⟨1⟩, ?_, ?_, ?_⟩, by decide +kernel⟩
  · have hfirst : factoryLoop.Course factoryParts
        (factorySubject.state.world.store.visit? (.list ⟨0⟩)) factorySubject.state
        [factoryFirst] (.going factorySecond.start) :=
      Course.start.run_of_answerOf (v := .null) (by decide +kernel) (by decide +kernel)
    exact hfirst.run_of_answerOf (v := .null) (by decide +kernel) (by decide +kernel)
  · decide +kernel
  · decide +kernel
  · decide +kernel

end Factory

end EachLoop

end Wei
