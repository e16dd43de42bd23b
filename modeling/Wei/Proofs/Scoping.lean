import Wei.Proofs.Tidy

/-!
Lexical scoping is sealed. What a scope declares, the names and which of them are constants, is
changed by the declarations that stand in it and by nothing else: not by an expression, a call or a
construction, whatever functions, methods and modules run meanwhile, and not by what stands in
blocks, branches and loops inside of it.
-/

namespace Wei

/-- What a scope declares: its names in order, and which of them are constants. -/
def Scope.declarations (c : Scope) : List (String × Bool) :=
  c.bindings.entries.map fun e => (e.1, e.2.constant)

/-! ### What can happen to what a scope declares -/

namespace Phase.Next

variable {φ ψ : Phase}

/-- A scope that is there is not opened again. -/
lemma not_open (h : φ.Next ψ) {r : Ref .scope} (hr : r.index < φ.store.scopes.size)
    (hclosed : .scope r ∉ φ.sites) : .scope r ∉ ψ.sites := by
  intro hmem
  rcases h.mem_sites hmem with hmem | e | e
  · exact hclosed hmem
  · obtain ⟨⟩ := e
    exact Nat.lt_irrefl _ hr
  · cases e

/-- What a scope declares stays so, but for one more declaration at the end if the scope is open. -/
lemma declarations_cases (h : φ.Next ψ) {r : Ref .scope} (hr : r.index < φ.store.scopes.size) :
    (ψ.store.scope r).declarations = (φ.store.scope r).declarations ∨
      .scope r ∈ φ.sites ∧
        ∃ d, (ψ.store.scope r).declarations = (φ.store.scope r).declarations ++ [d] := by
  rcases h.scope_cases hr with e | ⟨x, b, hsite, hnew, e⟩ | ⟨x, v, hheld, hconst, e⟩
  · exact .inl (congrArg Scope.declarations e)
  · refine .inr ⟨hsite, (x, b.constant), ?_⟩
    unfold Scope.declarations
    rw [e, OrderedMap.entries_insert_of_not_contains hnew, List.map_append]
    rfl
  · obtain ⟨b, hb⟩ := Option.isSome_iff_exists.mp hheld
    -- what was assigned was no constant before
    have hvar : b.constant = false := by
      unfold Store.isConstant at hconst
      rw [hb] at hconst
      exact hconst
    refine .inl ?_
    unfold Scope.declarations
    rw [e, OrderedMap.map_entries_insert hb (by rw [hvar])]

/-- Scopes stay where they are. -/
lemma outer_eq (h : φ.Next ψ) {r : Ref .scope} (hr : r.index < φ.store.scopes.size) :
    (ψ.store.scope r).outer = (φ.store.scope r).outer := by
  rcases h.scope_cases hr with e | ⟨x, b, _, _, e⟩ | ⟨x, v, _, _, e⟩
  · rw [e]
  · rw [e]
  · rw [e]

end Phase.Next

/-! ### What a course does to scopes that are there -/

namespace Store

/-- Every scope that is there declares the same, and is inside of the same scope. -/
structure Sealed (s s' : Store) : Prop where
  size_le : s.scopes.size ≤ s'.scopes.size
  outer (r : Ref .scope) : r.index < s.scopes.size → (s'.scope r).outer = (s.scope r).outer
  declarations (r : Ref .scope) : r.index < s.scopes.size →
    (s'.scope r).declarations = (s.scope r).declarations

variable {s s' s'' : Store}

instance : Std.Refl Sealed := ⟨fun _ => ⟨Nat.le_refl _, fun _ _ => rfl, fun _ _ => rfl⟩⟩

/-- If no scope that is there is open, a course changes nothing about them. -/
lemma Course.sealed {sites : List Site} (h : s.Course sites s')
    (hsites : ∀ r : Ref .scope, r.index < s.scopes.size → .scope r ∉ sites) : Sealed s s' := by
  -- what was there is not opened on the way, so each step leaves it alone
  have key : ∀ ψ, Relation.ReflTransGen Phase.Next ⟨s, sites⟩ ψ → Sealed s ψ.store ∧
      ∀ r : Ref .scope, r.index < s.scopes.size → .scope r ∉ ψ.sites := by
    intro ψ hψ
    induction hψ with
    | refl => exact ⟨Std.Refl.refl s, hsites⟩
    | @tail φ ψ _ hstep ih =>
      obtain ⟨hs, hclosed⟩ := ih
      have there {r : Ref .scope} (hr : r.index < s.scopes.size) :=
        Nat.lt_of_lt_of_le hr hs.size_le
      refine ⟨⟨Nat.le_trans hs.size_le hstep.scopes_size_le, fun r hr => ?_, fun r hr => ?_⟩,
        fun r hr => hstep.not_open (there hr) (hclosed r hr)⟩
      · exact (hstep.outer_eq (there hr)).trans (hs.outer r hr)
      · rcases hstep.declarations_cases (there hr) with e | ⟨hopen, _⟩
        · exact e.trans (hs.declarations r hr)
        · exact absurd hopen (hclosed r hr)
  exact (key _ h).1

/-- Nothing that a scope declares is ever taken back. -/
lemma declarations_prefix_of_later {φ ψ : Phase} (h : φ.Later ψ) {r : Ref .scope}
    (hr : r.index < φ.store.scopes.size) :
    (φ.store.scope r).declarations <+: (ψ.store.scope r).declarations := by
  have key : φ.store.scopes.size ≤ ψ.store.scopes.size ∧
      (φ.store.scope r).declarations <+: (ψ.store.scope r).declarations := by
    induction h with
    | refl => exact ⟨Nat.le_refl _, List.prefix_rfl⟩
    | tail _ hmove ih =>
      cases hmove with
      | enter s sites q => exact ih
      | next hstep =>
        refine ⟨Nat.le_trans ih.1 hstep.scopes_size_le, ih.2.trans ?_⟩
        rcases hstep.declarations_cases (Nat.lt_of_lt_of_le hr ih.1) with e | ⟨_, d, e⟩
        · exact ⟨[], by rw [List.append_nil, e]⟩
        · exact ⟨[d], e.symm⟩
  exact key.2

/-- Every scope that is there declares the same, but that `scope` may have got some of these
declarations at the end. -/
structure Gains (scope : Ref .scope) (ds : List (String × Bool)) (s s' : Store) : Prop where
  size_le : s.scopes.size ≤ s'.scopes.size
  outer (r : Ref .scope) : r.index < s.scopes.size → (s'.scope r).outer = (s.scope r).outer
  declarations (r : Ref .scope) : r.index < s.scopes.size →
    ∃ gained, gained.Sublist (if r = scope then ds else []) ∧
      (s'.scope r).declarations = (s.scope r).declarations ++ gained

variable {scope : Ref .scope} {ds ds' : List (String × Bool)}

lemma Sealed.gains (h : Sealed s s') : Gains scope ds s s' := by
  refine ⟨h.size_le, h.outer, fun r hr => ⟨[], List.nil_sublist _, ?_⟩⟩
  rw [h.declarations r hr, List.append_nil]

lemma Gains.mono (h : Gains scope ds s s') (hd : ds.Sublist ds') : Gains scope ds' s s' := by
  refine ⟨h.size_le, h.outer, fun r hr => ?_⟩
  obtain ⟨gained, hsub, e⟩ := h.declarations r hr
  refine ⟨gained, hsub.trans ?_, e⟩
  split
  · exact hd
  · exact List.Sublist.refl _

lemma Gains.append (h : Gains scope ds s s') (h' : Gains scope ds' s' s'') :
    Gains scope (ds ++ ds') s s'' := by
  have there {r : Ref .scope} (hr : r.index < s.scopes.size) := Nat.lt_of_lt_of_le hr h.size_le
  refine ⟨Nat.le_trans h.size_le h'.size_le, fun r hr => ?_, fun r hr => ?_⟩
  · exact (h'.outer r (there hr)).trans (h.outer r hr)
  obtain ⟨g, hg, e⟩ := h.declarations r hr
  obtain ⟨g', hg', e'⟩ := h'.declarations r (there hr)
  refine ⟨g ++ g', ?_, by rw [e', e, List.append_assoc]⟩
  split
  · next hr =>
    rw [if_pos hr] at hg hg'
    exact hg.append hg'
  · next hr =>
    rw [if_neg hr] at hg hg'
    exact hg.append hg'

end Store

/-- A name is declared in a scope, or refused there. -/
lemma StoreM.declare_gains (scope : Ref .scope) (x : String) (v : Value) (constant : Bool) :
    (StoreM.declare scope x v constant).Within (Store.Gains scope [(x, constant)]) := by
  intro s
  by_cases h : s.holds scope x = true
  · have hrefused : StoreM.declare scope x v constant s = .error (.redeclaredVariable x) s :=
      if_pos h
    rw [EStateM.after_of_error hrefused]
    exact Store.Sealed.gains (Std.Refl.refl s)
  · rw [EStateM.after_of_ok (s := s) (if_neg h)]
    refine ⟨Arena.size_le_set .., fun r _ => ?_, fun r _ => ?_⟩
    · dsimp only [Store.writeBinding]
      rw [Store.scope_setScope]
      split
      · next hr => rw [← hr]
      · rfl
    dsimp only [Store.writeBinding]
    rw [Store.scope_setScope]
    by_cases hr : scope = r
    · subst hr
      refine ⟨[(x, constant)], ?_, ?_⟩
      · simp
      · unfold Scope.declarations
        rw [if_pos rfl, OrderedMap.entries_insert_of_not_contains (eq_false_of_ne_true h),
          List.map_append]
        rfl
    · exact ⟨[], List.nil_sublist _, by rw [if_neg hr, List.append_nil]⟩

/-! ### What evaluations do to scopes that are there -/

/-- The evaluation leaves what scopes declare as it is, whatever its outcome. -/
abbrev Eval.Seals {α : Type} (x : Eval α) : Prop := x.Changes Store.Sealed

/-- The evaluation may give a scope some of these declarations, whatever its outcome, and leaves the
other scopes as they are. -/
abbrev Eval.Gains {α : Type} (scope : Ref .scope) (ds : List (String × Bool)) (x : Eval α) : Prop :=
  x.Changes (Store.Gains scope ds)

namespace Eval

open EStateM

variable {α β : Type} {x : Eval α} {f : α → Eval β} {scope : Ref .scope}
  {ds ds' : List (String × Bool)}

/-- A course for which no scope need be open. -/
lemma Tidy.seals {sites : List Site} (hx : x.Tidy sites) (hs : ∀ r, .scope r ∉ sites) : x.Seals :=
  fun m => Store.Course.sealed (hx m) fun r _ => hs r

lemma Seals.gains (hx : x.Seals) : x.Gains scope ds := fun m => Store.Sealed.gains (hx m)

lemma Gains.bind (hx : x.Gains scope ds) (hf : ∀ a, (f a).Gains scope ds') :
    (x >>= f).Gains scope (ds ++ ds') := by
  intro m
  rcases after_bind_cases x f m with h | ⟨a, _, h⟩
  · rw [h]
    exact Store.Gains.mono (hx m) (List.sublist_append_left ds ds')
  · rw [h]
    exact Store.Gains.append (hx m) (hf a _)

/-- Something that leaves scopes as they are comes first. -/
lemma Seals.bind_gains (hx : x.Seals) (hf : ∀ a, (f a).Gains scope ds) :
    (x >>= f).Gains scope ds := by
  have hfirst : x.Gains scope [] := hx.gains
  exact hfirst.bind hf

/-- Something that leaves scopes as they are comes last. -/
lemma Gains.bind_seals (hx : x.Gains scope ds) (hf : ∀ a, (f a).Seals) :
    (x >>= f).Gains scope ds := by
  rw [← List.append_nil ds]
  exact Gains.bind hx fun a => (hf a).gains

end Eval

/-- What statements declare in the scope in which they stand, in order. -/
def Stmt.declarations (body : List Stmt) : List (String × Bool) :=
  body.flatMap fun s => s.action.declaration?.toList

/-- What a node declares in the scope in which it is evaluated. -/
def Node.declarations : Node → List (String × Bool)
  | .program p => Stmt.declarations p.body
  | .stmt s => s.action.declaration?.toList
  | .expr _ => []

namespace Evaluator

open EStateM Eval.Changes

variable {parts : Evaluator} {scope : Ref .scope}

/-- **A statement declares what it says and no more**, in the scope in which it stands. -/
theorem Tidy.evalAction_gains (hp : parts.Tidy) (rounds : Nat) (a : Action) :
    (parts.evalAction rounds scope a).Gains scope a.declaration?.toList := by
  cases hd : a.declaration? with
  | none =>
    have htidy : (parts.evalAction rounds scope a).Tidy [] :=
      hp.evalAction rounds a fun h => by simp [hd] at h
    exact (htidy.seals nofun).gains
  | some d =>
    cases a with
    | declare x value constant =>
      obtain ⟨⟩ := hd
      have hvalue : (parts.expr? scope value).Tidy [] := hp.expr? value
      refine (hvalue.seals nofun).bind_gains fun v => ?_
      exact Eval.Gains.bind_seals (onStore (StoreM.declare_gains scope x _ _)) fun _ => .pure _
    | define f =>
      obtain ⟨⟩ := hd
      have hclosure : (Evaluator.closure scope none f).Tidy [] := Tidy.closure scope none f
      refine (hclosure.seals nofun).bind_gains fun r => ?_
      exact Eval.Gains.bind_seals (onStore (StoreM.declare_gains scope _ _ _)) fun _ => .pure _
    | classDef x parent body =>
      obtain ⟨⟩ := hd
      have hparent : (parts.parentClass scope x parent).Tidy [] := hp.parentClass x parent
      have hnew (above : Ref .cls) :
          (Eval.onStore (StoreM.newClass (Class.blank x (some above)))).Seals :=
        onStore fun s => ⟨Nat.le_refl _, fun _ _ => rfl, fun _ _ => rfl⟩
      refine (hparent.seals nofun).bind_gains fun above => (hnew above).bind_gains fun cls => ?_
      refine Eval.Gains.bind_seals (onStore (StoreM.declare_gains scope x _ true)) fun _ => ?_
      -- declarations in the body go into the class
      have hbody : (parts.classBody scope cls body).Tidy [.cls cls] :=
        hp.classBody List.mem_cons_self body
      exact hbody.seals fun r hr => by simp at hr
    | _ => cases hd

/-- Statements one after the other declare no more than each of them. -/
lemma sequence_gains (hs : ∀ s, (parts.stmt scope s).Gains scope s.action.declaration?.toList)
    (last : Value) (body : List Stmt) :
    (parts.sequence scope last body).Gains scope (Stmt.declarations body) := by
  induction body generalizing last with
  | nil => exact Eval.Seals.gains (.pure last)
  | cons s rest ih =>
    have hfirst : (parts.execute scope s).Gains scope s.action.declaration?.toList :=
      Eval.Seals.bind_gains (atLine s.line) fun _ => recording (hs s)
    exact Eval.Gains.bind hfirst fun v => ih v

lemma node_gains (hp : parts.Tidy)
    (hs : ∀ s, (parts.stmt scope s).Gains scope s.action.declaration?.toList) (n : Node) :
    (Eval.node parts scope n).Gains scope n.declarations := by
  cases n with
  | program p => exact takingReturn (outsideLoops (sequence_gains hs .null p.body))
  | stmt s => exact Eval.Seals.bind_gains (atLine s.line) fun _ => recording (hs s)
  | expr e =>
    have he : (parts.expr scope e).Tidy [] := hp.expr scope e
    exact (he.seals nofun).gains

lemma ofDepth_stmt_gains (host : Host) (rounds depth : Nat) (s : Stmt) :
    ((ofDepth (load host) rounds depth).stmt scope s).Gains scope s.action.declaration?.toList := by
  cases depth with
  | zero => exact Eval.Seals.gains (.throw _)
  | succ depth => exact (ofDepth_tidy host rounds depth).evalAction_gains rounds s.action

end Evaluator

/-! ### The law of scopes -/

/-- Whatever the evaluator is asked to do declares nothing in scopes that are there, but for what
statements declare in the scope in which they stand. -/
structure Evaluator.Seals (host : Host) (parts : Evaluator) : Prop where
  expr (scope : Ref .scope) (e : Expr) : (parts.expr scope e).Seals
  apply (callee : Value) (args : List Value) : (parts.apply callee args).Seals
  method (receiver : Receiver) (f : Ref .function) (args : List Value) :
    (parts.callMethod receiver f args).Seals
  construct (cls : Ref .cls) (args : List Value) : (parts.construct cls args).Seals
  iterate (v : Value) : (parts.iterate v).Seals
  load (name : String) : (Evaluator.load host parts name).Seals
  block (scope : Ref .scope) (body : List Stmt) : (parts.block scope body).Seals
  /-- Among these are blocks, branches and loops. -/
  undeclaring (scope : Ref .scope) (s : Stmt) :
    s.action.declaration? = none → (parts.stmt scope s).Seals
  stmt (scope : Ref .scope) (s : Stmt) :
    (parts.stmt scope s).Gains scope s.action.declaration?.toList

lemma Evaluator.ofDepth_seals (host : Host) (rounds depth : Nat) :
    (Evaluator.ofDepth (Evaluator.load host) rounds depth).Seals host := by
  have hp := Evaluator.ofDepth_tidy host rounds depth
  have closed {α : Type} {x : Eval α} (hx : x.Tidy []) : x.Seals := hx.seals nofun
  constructor
  case expr => exact fun scope e => closed (hp.expr scope e)
  case apply => exact fun callee args => closed (hp.apply callee args)
  case method => exact fun receiver f args => closed (hp.callMethod receiver f args)
  case construct => exact fun cls args => closed (hp.construct cls args)
  case iterate => exact fun v => closed (hp.iterate v)
  case load => exact fun name => closed (hp.load host name)
  case block => exact fun scope body => closed (hp.block scope body)
  case undeclaring => exact fun scope s hs => closed (hp.stmt s fun h => by simp [hs] at h)
  case stmt => exact fun scope s => Evaluator.ofDepth_stmt_gains host rounds depth s

lemma Eval.evaluate_gains (host : Host) (limits : Limits) (n : Node) (scope : Ref .scope) :
    (Eval.evaluate host limits n scope).Gains scope n.declarations := by
  have hn : (Eval.node _ scope n).Gains scope n.declarations :=
    Evaluator.node_gains (Evaluator.ofDepth_tidy host limits.rounds limits.depth)
      (Evaluator.ofDepth_stmt_gains host limits.rounds limits.depth) n
  refine Eval.Seals.bind_gains (Eval.Changes.aside fun _ => rfl) fun _ => ?_
  exact hn.outsideLoops.takingReturn.boundingDepth.recording.atBottom

/-- **Lexical scoping is sealed**, in every state and whatever the outcome is. Scopes that are there
declare the same names and the same constants after every expression, call, construction, walk and
import, and after every statement but those that declare something in the scope in which they
stand. Such a statement declares its own name there, or nothing. What hosts have evaluated declares
only what its statements say, and nothing that hosts do takes a declaration back. -/
theorem Evaluator.scoping_is_sealed (host : Host) :
    (∀ rounds depth, (Evaluator.ofDepth (Evaluator.load host) rounds depth).Seals host) ∧
      (∀ limits n scope, (Eval.evaluate host limits n scope).Gains scope n.declarations) ∧
      ∀ p q : Engine, p.Leads q → ∀ r : Ref .scope, r.index < p.store.scopes.size →
        (p.store.scope r).declarations <+: (q.store.scope r).declarations :=
  ⟨Evaluator.ofDepth_seals host, Eval.evaluate_gains host,
    fun _ _ h _ hr => Store.declarations_prefix_of_later h.later hr⟩

/-- A program declares a variable, a block another one, and a function that is called a third one.
Only the first goes into the scope of the module. -/
theorem Evaluator.block_and_call_are_sealed :
    let host : Host := ⟨.empty ⟨[]⟩, fun _ _ => .syntaxError "", Text.line?⟩
    let start := Engine.initial.newSession false .standard none
    let first := (start.turn 0 (Eval.openModule host "")).2
    let one : Option Expr := some (.literal (.int 1))
    let f : FunctionLiteral := .mk none [] [.mk 3 (.declare "z" one true)]
    let program : Node := .program ⟨[.mk 1 (.declare "x" one false),
      .mk 2 (.block [.mk 2 (.declare "y" one false)]), .mk 3 (.eval (.call (.function f) []))]⟩
    let second := (first.turn 0 (Eval.evaluate host ⟨6, 1⟩ program ⟨0⟩)).2
    first.store.scopes.size = 1 ∧ second.store.scopes.size = 4 ∧
      (second.store.scope ⟨0⟩).declarations = [("wei", true), ("x", false)] ∧
      (first.store.scope ⟨0⟩).declarations <+: (second.store.scope ⟨0⟩).declarations := by
  intro host start first one f program second
  have hfirst : first.store.scopes.size = 1 := by decide +kernel
  have hsecond : second.store.scopes.size = 4 := by decide +kernel
  have hdeclared : (second.store.scope ⟨0⟩).declarations = [("wei", true), ("x", false)] := by
    decide +kernel
  have hstep : first.Leads second := .single (.evaluate 0 host ⟨6, 1⟩ program ⟨0⟩)
  refine ⟨hfirst, hsecond, hdeclared, ?_⟩
  exact (Evaluator.scoping_is_sealed host).2.2 first second hstep ⟨0⟩ (hfirst ▸ Nat.zero_lt_one)

end Wei
