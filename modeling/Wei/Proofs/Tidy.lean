import Wei.Proofs.Course

/-!
Every evaluation is a course of the store. Statements declare in the scope in which they stand, so
that has to be open; bodies of functions, loops and branches, and the texts of modules, run in
scopes that are made for them. An expression needs no place to be open, whatever functions it calls
and whatever modules it loads.
-/

namespace Wei

/-- The name that an action binds in the scope in which it stands, and whether as a constant. -/
def Action.declaration? : Action → Option (String × Bool)
  | .declare x _ constant => some (x, constant)
  | .define f => some (f.name.getD "", false)
  | .classDef x _ _ => some (x, true)
  | _ => none

/-- The evaluation is a course of the store, whatever its outcome. -/
abbrev Eval.Tidy (sites : List Site) {α : Type} (x : Eval α) : Prop :=
  x.Changes (Store.Course sites)

/-! ### Ways to put evaluations together -/

namespace Eval

open EStateM

variable {sites : List Site} {α β : Type} {x : Eval α}

/-- A new module is made in any case. Only the cache may refuse it. -/
lemma newCachedModule_cases (path : String) (m : Machine) :
    ∃ m', m'.world.store = (StoreM.newModuleAt path).after m.world.store ∧
      (newCachedModule path m = .ok ⟨m.world.store.modules.size⟩ m' ∨
        ∃ c, newCachedModule path m = .error (.crash c) m') := by
  unfold newCachedModule
  rw [bind_of_ok (onStore_newModuleAt path m)]
  cases hadd : m.world.cache.add path ⟨m.world.store.modules.size⟩ with
  | ok cache =>
    refine ⟨{ m with
      world.store := (StoreM.newModuleAt path).after m.world.store
      world.cache := cache }, rfl, .inl (bind_of_ok rfl |>.trans ?_)⟩
    rw [hadd]
    rfl
  | error c =>
    refine ⟨{ m with world.store := (StoreM.newModuleAt path).after m.world.store }, rfl,
      .inr ⟨c, bind_of_ok rfl |>.trans ?_⟩⟩
    rw [hadd]
    rfl

namespace Tidy

/-- Something that has nothing to do with scopes, classes and instances. -/
lemma onOtherTables {y : StoreM α} (hy : y.Within Store.SameTables) : (Eval.onStore y).Tidy sites :=
  Changes.onStore (StoreM.Tidy.of_sameTables hy)

/-- Something that has to do with nothing but contents. -/
lemma onContents {y : StoreM α} (hy : y.Within Store.SameButContents) :
    (Eval.onStore y).Tidy sites :=
  onOtherTables (hy.imp fun _ _ h => h.toSameTables)

/-- Something is answered in the end. -/
lemma thenPure (hx : x.Tidy sites) (f : α → β) : (x >>= fun a => Pure.pure (f a)).Tidy sites :=
  .bind hx fun a => .pure (f a)

lemma repeating {round : Eval Bool} (h : round.Tidy sites) (rounds : Nat) :
    (Eval.repeating round rounds).Tidy sites := by
  induction rounds with
  | zero => exact .throw _
  | succ rounds ih => exact .bind h fun _ => .ite ih (.pure ())

lemma walking {body : Value × Value → Eval Bool} (h : ∀ step, (body step).Tidy sites)
    (rounds : Nat) (walk : Iteration) : (Eval.walking body rounds walk).Tidy sites := by
  induction rounds generalizing walk with
  | zero => exact .throw _
  | succ rounds ih =>
    refine .bind Changes.store fun s => ?_
    rcases walk.next? s with _ | ⟨step, rest⟩
    · exact .pure ()
    · exact .bind (h step) fun _ => .ite (ih rest) (.pure ())

/-- Something runs in a new scope, which is open meanwhile and has no constants at first. -/
lemma inScope {f : Ref .scope → Eval α} (r : Ref .scope)
    (h : ∀ (own : Ref .scope) (m : Machine), (∀ x, m.world.store.isConstant own x = false) →
      m.world.store.Course (.scope own :: sites) ((f own).after m).world.store) :
    (Eval.onStore (StoreM.childScope r) >>= f).Tidy sites := by
  intro m
  refine Store.Course.inScope (some r) (h ⟨m.world.store.scopes.size⟩
    { m with world.store.scopes := m.world.store.scopes.push ⟨.empty, some r⟩ } fun x => ?_)
  refine StoreM.isConstant_of_no_bindings ?_ x
  exact congrArg Scope.bindings (Arena.get_push_size m.world.store.scopes ⟨.empty, some r⟩)

/-- Something runs while a new class is open. -/
lemma inClass {f : Ref .cls → Eval α} (x : String) (parent : Ref .cls)
    (h : ∀ c, (f c).Tidy (.cls c :: sites)) :
    (Eval.onStore (StoreM.newClass (Class.blank x (some parent))) >>= f).Tidy sites :=
  fun m => Store.Course.inClass (h ⟨m.world.store.classes.size⟩
    { m with world.store.classes := m.world.store.classes.push (Class.blank x (some parent)) })

/-- Something runs in the scope of a new module, which is open meanwhile. -/
lemma inModule {g : Ref .module → Ref .scope → Eval α} (path : String)
    (h : ∀ r own, (g r own).Tidy (.scope own :: sites)) :
    (Eval.newCachedModule path >>= fun r =>
      Eval.store >>= fun s => g r (s.module r).scope).Tidy sites := by
  intro m
  obtain ⟨m₁, hm₁, hm | ⟨c, hm⟩⟩ := newCachedModule_cases path m
  · -- the scope of the new module is the one that is opened for it
    have hmodule : m₁.world.store.module ⟨m.world.store.modules.size⟩ =
        ⟨path, ⟨m.world.store.scopes.size⟩, []⟩ := by
      rw [hm₁, after_of_ok (StoreM.newModuleAt_eq path m.world.store)]
      exact Arena.get_push_size ..
    have hafter : (Eval.store >>= fun s => g ⟨m.world.store.modules.size⟩
        (s.module ⟨m.world.store.modules.size⟩).scope).after m₁ =
        (g ⟨m.world.store.modules.size⟩ ⟨m.world.store.scopes.size⟩).after m₁ := by
      show (g _ (m₁.world.store.module ⟨m.world.store.modules.size⟩).scope).after m₁ = _
      rw [hmodule]
    rw [after_bind_of_ok hm, hafter]
    refine Store.Course.inModule path ?_
    rw [← hm₁]
    exact h _ _ m₁
  · rw [after_of_error (bind_of_error hm)]
    refine Store.Course.inModule path ?_
    rw [← hm₁]
    exact .refl _

end Tidy

end Eval

/-- Whatever the evaluator is asked to do is a course. If a statement declares something, the scope
in which it stands has to be open. -/
structure Evaluator.Tidy (parts : Evaluator) : Prop where
  expr {sites : List Site} (scope : Ref .scope) (e : Expr) : (parts.expr scope e).Tidy sites
  stmt {sites : List Site} {scope : Ref .scope} (s : Stmt) :
    (s.action.declaration?.isSome → .scope scope ∈ sites) → (parts.stmt scope s).Tidy sites
  walk {sites : List Site} (v : Value) : (parts.walk v).Tidy sites

namespace Evaluator.Tidy

open EStateM Eval.Changes Eval.Tidy

variable {parts : Evaluator} (hp : parts.Tidy) {sites : List Site} {scope : Ref .scope}
include hp

/-! ### Sequences of parts -/

lemma exprs (es : List Expr) : (parts.exprs scope es).Tidy sites := by
  induction es with
  | nil => exact .pure []
  | cons e rest ih => exact .bind (hp.expr scope e) fun v => thenPure ih (v :: ·)

lemma expr? (e : Option Expr) : (parts.expr? scope e).Tidy sites := by
  cases e with
  | none => exact .pure none
  | some e => exact thenPure (hp.expr scope e) some

lemma execute (s : Stmt) (hs : s.action.declaration?.isSome → .scope scope ∈ sites) :
    (parts.execute scope s).Tidy sites :=
  .bind (atLine s.line) fun _ => recording (hp.stmt s hs)

lemma sequence (hscope : .scope scope ∈ sites) (last : Value) (body : List Stmt) :
    (parts.sequence scope last body).Tidy sites := by
  induction body generalizing last with
  | nil => exact .pure last
  | cons s rest ih => exact .bind (hp.execute s fun _ => hscope) fun v => ih v

lemma block (scope : Ref .scope) (body : List Stmt) : (parts.block scope body).Tidy sites :=
  inScope scope fun _ _ _ => hp.sequence List.mem_cons_self .null body _

lemma program (hscope : .scope scope ∈ sites) (p : Program) :
    (parts.program scope p).Tidy sites :=
  takingReturn (outsideLoops (hp.sequence hscope .null p.body))

/-! ### Calls -/

lemma callFunction (f : Ref .function) (args : List Value) (bindings : List (String × Value)) :
    (parts.callFunction f args bindings).Tidy sites := by
  refine .bind store fun s => .ite (fault _) (inScope _ fun own m hc => ?_)
  refine after_bind (R := Machine.OnStores (Store.Course (.scope own :: sites))) ?_ fun _ => ?_
  · rw [Eval.after_onStore]
    exact StoreM.bindParameters_course List.mem_cons_self hc _
  · refine takingReturn (withFrame (outsideLoops ?_) _ _) _
    exact thenPure (hp.block own (s.function f).body) fun _ => Value.null

lemma callMethod (receiver : Receiver) (f : Ref .function) (args : List Value) :
    (parts.callMethod receiver f args).Tidy sites := by
  refine .bind (onContents (.bind .get fun s => ?_)) fun bindings =>
    hp.callFunction f args bindings
  cases (s.function f).owner with
  | none => exact .pure _
  | some owner => exact .bind (StoreM.newBound_sameButContents _) fun _ => .pure _

lemma construct (cls : Ref .cls) (args : List Value) : (parts.construct cls args).Tidy sites := by
  refine .bind (onStore (StoreM.newInstance_tidy cls)) fun this => .bind store fun s => ?_
  refine .ite (fault _) ?_
  have finish : (do
      Eval.onStore (StoreM.finishInstance this)
      pure (Value.inst this) : Eval Value).Tidy sites :=
    thenPure (onStore (StoreM.finishInstance_tidy this)) fun _ => Value.inst this
  cases s.findMethod? cls "__init__" with
  | none => exact finish
  | some f => exact .bind (hp.callMethod (.inst this) f args) fun _ => finish

lemma callBound (r : Ref .bound) (args : List Value) : (parts.callBound r args).Tidy sites := by
  refine .bind store fun s => ?_
  cases s.bound r with
  | text m this => exact onContents (StoreM.textMethod_call_sameButContents m this args)
  | list m this => exact onContents (StoreM.listMethod_call_sameButContents m this args)
  | method this f => exact hp.callMethod (.inst this) f args
  | classMethod cls f => exact hp.callMethod (.cls cls) f args
  | super _ _ => exact fault _

lemma apply (callee : Value) (args : List Value) : (parts.apply callee args).Tidy sites := by
  cases callee with
  | function f => exact hp.callFunction f args []
  | bound r => exact hp.callBound r args
  | cls r => exact hp.construct r args
  | builtin b => exact builtin b args
  | _ => exact .bind store fun s => fault _

lemma iterate (v : Value) : (parts.iterate v).Tidy sites := by
  refine .bind store fun s => ?_
  cases s.iteration? v with
  | some walk => exact .pure walk
  | none =>
    cases v with
    | inst r =>
      dsimp only
      cases s.findMethod? (s.inst r).cls "__iter__" with
      | some f => exact .bind (hp.callMethod (.inst r) f []) fun v => hp.walk v
      | none => exact fault _
    | _ => exact fault _

/-! ### Loading -/

omit hp in
lemma readProgram (host : Host) (path : String) : (Eval.readProgram host path).Tidy sites := by
  refine .bind (orCrash _) fun read => ?_
  cases read with
  | error refusal => exact fault _
  | ok text =>
    refine .bind (aside fun _ => rfl) fun parsed => ?_
    cases parsed with
    | crash c => exact .throw _
    | syntaxError message => exact fault _
    | program p => exact .pure p

lemma load (host : Host) (name : String) : (Evaluator.load host parts name).Tidy sites := by
  refine .bind (orCrash _) fun path => .ite (fault _) (.bind .get fun m => ?_)
  cases m.world.cache.find? path.text with
  | some r => exact .pure _
  | none =>
    refine .bind (aside fun _ => rfl) fun _ => .bind (readProgram host path.text) fun p => ?_
    refine inModule (g := fun r own =>
      Eval.withModule r (Eval.withFrame path.text "<module>" (parts.program own p)) >>=
        fun _ => pure (Value.module r)) path.text fun r own => ?_
    exact thenPure (withModule (withFrame (hp.program List.mem_cons_self p) _ _) r) _

/-! ### Expressions -/

omit hp in
lemma name (scope : Ref .scope) (x : String) : (Evaluator.name scope x).Tidy sites := by
  refine .bind store fun s => ?_
  cases s.lookup? scope x with
  | some v => exact .pure v
  | none =>
    dsimp only
    cases rootName? x with
    | some v => exact .pure v
    | none => exact fault _

omit hp in
lemma closure (scope : Ref .scope) (owner : Option (Ref .cls)) (f : FunctionLiteral) :
    (Evaluator.closure scope owner f).Tidy sites :=
  .bind .get fun _ => onOtherTables (StoreM.newFunction_sameTables _)

lemma entries (acc : Dict) (pairs : List (Expr × Expr)) :
    (parts.entries scope acc pairs).Tidy sites := by
  induction pairs generalizing acc with
  | nil => exact .pure acc
  | cons pair rest ih =>
    refine .bind (hp.expr scope pair.1) fun key => .bind (orCrash _) fun _ => ?_
    cases key.hashKey? with
    | none => exact .bind store fun s => fault _
    | some hash => exact .bind (hp.expr scope pair.2) fun value => ih _

lemma shortCircuit (op : ShortCircuit) (lhs rhs : Expr) :
    (parts.shortCircuit scope op lhs rhs).Tidy sites := by
  refine .bind (hp.expr scope lhs) fun left => .bind store fun s => .ite (.pure _) ?_
  exact .bind (hp.expr scope rhs) fun right => thenPure store _

/-- **An expression is a course**, and no place need be open. -/
theorem evalExpr {load : Loader} (hload : ∀ name, (load parts name).Tidy sites) (e : Expr) :
    (parts.evalExpr load scope e).Tidy sites := by
  cases e with
  | literal l => exact orCrash _
  | name x => exact name scope x
  | list es =>
    exact .bind (hp.exprs es) fun vs => thenPure (onContents (StoreM.newList_sameButContents vs)) _
  | dict pairs =>
    refine .bind (hp.entries .empty pairs) fun d => ?_
    exact thenPure (onContents (StoreM.newDict_sameButContents d)) _
  | function f => exact thenPure (closure scope none f) _
  | unary op e => exact .bind (hp.expr scope e) fun v => askStore _
  | binary op lhs rhs =>
    exact .bind (hp.expr scope lhs) fun _ => .bind (hp.expr scope rhs) fun _ => askStore _
  | shortCircuit op lhs rhs => exact hp.shortCircuit op lhs rhs
  | call callee args =>
    exact .bind (hp.expr scope callee) fun f => .bind (hp.exprs args) fun vs => hp.apply f vs
  | item subject index =>
    refine .bind (hp.expr scope subject) fun _ => .bind (hp.expr scope index) fun _ => ?_
    exact .bind (orCrash _) fun _ => askStore _
  | attr subject x =>
    refine .bind (hp.expr scope subject) fun v => ?_
    exact onContents (StoreM.getAttribute_sameButContents v x)
  | load path =>
    refine .bind (hp.expr scope path) fun v => ?_
    cases v with
    | str t => exact .bind (orCrash _) fun x => hload x
    | _ => exact .bind store fun s => fault _

/-! ### Definitions of classes -/

lemma parentClass (x : String) (parent : Option Expr) :
    (parts.parentClass scope x parent).Tidy sites := by
  cases parent with
  | none => exact .pure _
  | some e =>
    refine .bind (hp.expr scope e) fun v => ?_
    cases v with
    | cls r => exact .pure r
    | _ => exact .bind store fun s => fault _

lemma declareMember {cls : Ref .cls} (hcls : .cls cls ∈ sites) (a : Action) :
    (parts.declareMember scope cls a).Tidy sites := by
  cases a with
  | member x value constant classLevel =>
    refine .bind (hp.expr? value) fun v => .ite ?_ ?_
    · exact thenPure (onStore (StoreM.addClassMember_tidy hcls x _ constant)) _
    · exact thenPure (onStore (StoreM.addMember_tidy hcls x v constant)) _
  | method f classLevel =>
    refine .bind (closure scope (some cls) f) fun r => .ite ?_ ?_
    · exact thenPure (onStore (StoreM.addClassMethod_tidy hcls _ r)) _
    · exact thenPure (onStore (StoreM.addMethod_tidy hcls _ r)) _
  | _ => exact .throw _

lemma classBody {cls : Ref .cls} (hcls : .cls cls ∈ sites) (body : List Stmt) :
    (parts.classBody scope cls body).Tidy sites := by
  induction body with
  | nil => exact .pure _
  | cons s rest ih =>
    refine .bind (atLine s.line) fun _ => ?_
    exact .bind (recording (hp.declareMember hcls s.action)) fun _ => ih

lemma defineClass (hscope : .scope scope ∈ sites) (x : String) (parent : Option Expr)
    (body : List Stmt) : (parts.defineClass scope x parent body).Tidy sites := by
  refine .bind (hp.parentClass x parent) fun above => inClass x above fun cls => ?_
  refine .bind (onStore (StoreM.declare_tidy (List.mem_cons_of_mem _ hscope) _ _ _)) fun _ => ?_
  exact hp.classBody List.mem_cons_self body

/-! ### Statements -/

lemma assign (value : Value) (t : Target) : (parts.assign scope value t).Tidy sites := by
  cases t with
  | name x => exact onStore (StoreM.assign_tidy scope x value)
  | item subject index =>
    refine .bind (hp.expr scope subject) fun v => .bind (hp.expr scope index) fun i => ?_
    exact .bind (orCrash _) fun _ => onContents (StoreM.setItem_sameButContents v i value)
  | attr subject x =>
    exact .bind (hp.expr scope subject) fun v => onStore (StoreM.setAttribute_tidy v x value)
  | loop subject address => exact .bind (hp.expr scope subject) fun _ => fault _
  | invalid => exact .throw _

lemma branches (otherwise : Option (List Stmt)) (bs : List (Expr × List Stmt)) :
    (parts.branches scope otherwise bs).Tidy sites := by
  induction bs with
  | nil =>
    cases otherwise with
    | none => exact .pure _
    | some body => exact hp.block scope body
  | cons b rest ih =>
    refine .bind (hp.expr scope b.1) fun test => .bind store fun s => ?_
    exact .ite (hp.block scope b.2) ih

lemma whileRound (condition : Expr) (body : List Stmt) :
    (parts.whileRound scope condition body).Tidy sites := by
  refine .bind (hp.expr scope condition) fun test => .bind store fun s => ?_
  exact .ite (loopRound (hp.block scope body)) (.pure false)

lemma eachRound (targets : List String) (body : List Stmt) (constant : Bool)
    (step : Value × Value) : (parts.eachRound scope targets body constant step).Tidy sites := by
  refine .ite (fault _) (inScope scope fun own m _ => ?_)
  have hdeclare : (StoreM.declareAll own constant (targets.zip [step.1, step.2])).Tidy
      (.scope own :: sites) := StoreM.declareAll_tidy List.mem_cons_self constant _
  exact EStateM.Within.bind (onStore hdeclare) (fun _ => loopRound (hp.block own body)) m

omit hp in
lemma exportNames (names : List String) : (Evaluator.exportNames names).Tidy sites := by
  refine .bind .get fun m => ?_
  cases m.module with
  | none => exact fault _
  | some r => exact onOtherTables (StoreM.exportNames_sameTables r names)

/-- **A statement is a course.** If it declares something, the scope in which it stands is open. -/
theorem evalAction (rounds : Nat) (a : Action)
    (ha : a.declaration?.isSome → .scope scope ∈ sites) :
    (parts.evalAction rounds scope a).Tidy sites := by
  cases a with
  | block body => exact hp.block scope body
  | declare x value constant =>
    refine .bind (hp.expr? value) fun v => ?_
    exact thenPure (onStore (StoreM.declare_tidy (ha rfl) x _ constant)) _
  | assign target value =>
    exact .bind (hp.expr scope value) fun v => thenPure (hp.assign v target) _
  | eval e => exact hp.expr scope e
  | ret value => exact .bind (hp.expr? value) fun v => .throw _
  | branch bs otherwise => exact hp.branches otherwise bs
  | loop condition body => exact thenPure (repeating (hp.whileRound condition body) rounds) _
  | each targets subject body constant =>
    refine .bind (hp.expr scope subject) fun v => .bind (hp.iterate v) fun walk => ?_
    exact thenPure (walking (hp.eachRound targets body constant) rounds walk) _
  | breakLoop => exact .throw _
  | continueLoop => exact .throw _
  | define f =>
    refine .bind (closure scope none f) fun r => ?_
    exact thenPure (onStore (StoreM.declare_tidy (ha rfl) _ _ _)) _
  | classDef x parent body => exact hp.defineClass (ha rfl) x parent body
  | member _ _ _ _ => exact .throw _
  | method _ _ => exact .throw _
  | exports names => exact thenPure (exportNames names) _

lemma node (hscope : .scope scope ∈ sites) (n : Node) : (Eval.node parts scope n).Tidy sites := by
  cases n with
  | program p => exact hp.program hscope p
  | stmt s => exact hp.execute s fun _ => hscope
  | expr e => exact hp.expr scope e

end Evaluator.Tidy

/-! ### Evaluators of any depth, and what hosts ask for -/

/-- **Whatever evaluations do is a course of the store**, to any depth of nesting. -/
theorem Evaluator.ofDepth_tidy (host : Host) (rounds depth : Nat) :
    (Evaluator.ofDepth (Evaluator.load host) rounds depth).Tidy := by
  induction depth with
  | zero => exact ⟨fun _ _ => .throw _, fun _ _ => .throw _, fun _ => .throw _⟩
  | succ depth ih =>
    refine ⟨fun scope e => ?_, fun s hs => ?_, fun v => ?_⟩
    · exact ih.evalExpr (ih.load host) e
    · exact ih.evalAction rounds s.action hs
    · exact ih.iterate v

lemma Eval.evaluate_tidy {sites : List Site} {scope : Ref .scope} (hscope : .scope scope ∈ sites)
    (host : Host) (limits : Limits) (n : Node) :
    (Eval.evaluate host limits n scope).Tidy sites := by
  have hn : (Eval.node _ scope n).Changes _ :=
    (Evaluator.ofDepth_tidy host limits.rounds limits.depth).node hscope n
  refine EStateM.Within.bind (Eval.Changes.aside fun _ => rfl) fun _ => ?_
  exact hn.outsideLoops.takingReturn.boundingDepth.recording.atBottom

/-- What can happen next while hosts are at work: they can have something evaluated in any scope,
which is open then. -/
inductive Phase.Move : Phase → Phase → Prop
  | next {φ ψ : Phase} : φ.Next ψ → Move φ ψ
  | enter (s : Store) (sites : List Site) (r : Ref .scope) : Move ⟨s, sites⟩ ⟨s, .scope r :: sites⟩

/-- One phase comes later than the other, or is the same. -/
def Phase.Later : Phase → Phase → Prop := Relation.ReflTransGen Phase.Move

lemma Store.Course.later {sites : List Site} {s s' : Store} (h : s.Course sites s') :
    Phase.Later ⟨s, sites⟩ ⟨s', sites⟩ :=
  Relation.ReflTransGen.mono (fun _ _ => Phase.Move.next) _ _ h

/-- A course for which a scope is opened. -/
lemma Store.Course.later_entering {sites : List Site} {s s' : Store} {r : Ref .scope}
    (h : s.Course (.scope r :: sites) s') : Phase.Later ⟨s, sites⟩ ⟨s', sites⟩ :=
  (Relation.ReflTransGen.head (.enter s sites r) h.later).tail (.next (.close s' _ sites))

/-- What every single change keeps is kept, however long things go on. -/
lemma Phase.Later.keep {P : Store → Prop}
    (hnext : ∀ φ ψ : Phase, φ.Next ψ → P φ.store → P ψ.store) {φ ψ : Phase} (h : φ.Later ψ)
    (hφ : P φ.store) : P ψ.store := by
  induction h with
  | refl => exact hφ
  | tail _ hmove ih =>
    cases hmove with
    | next hmove => exact hnext _ _ hmove ih
    | enter s sites r => exact ih

/-- The evaluation takes the store from phase to phase, whatever its outcome and whatever places are
open meanwhile. -/
def Eval.Proceeds {α : Type} (x : Eval α) : Prop :=
  ∀ sites, x.Changes fun s s' => Phase.Later ⟨s, sites⟩ ⟨s', sites⟩

/-- Something that needs no open place. -/
lemma Eval.Proceeds.of_tidy {α : Type} {x : Eval α} (hx : ∀ sites, x.Tidy sites) : x.Proceeds :=
  fun sites m => Store.Course.later (hx sites m)

/-- Something that runs in a scope, which is open meanwhile. -/
lemma Eval.Proceeds.of_tidy_in {α : Type} {x : Eval α} (r : Ref .scope)
    (hx : ∀ sites, x.Tidy (.scope r :: sites)) : x.Proceeds :=
  fun sites m => Store.Course.later_entering (hx sites m)

/-- Whatever the evaluator is asked to do takes the store from phase to phase. -/
structure Evaluator.Proceeds (host : Host) (parts : Evaluator) : Prop where
  expr (scope : Ref .scope) (e : Expr) : (parts.expr scope e).Proceeds
  stmt (scope : Ref .scope) (s : Stmt) : (parts.stmt scope s).Proceeds
  apply (callee : Value) (args : List Value) : (parts.apply callee args).Proceeds
  /-- Any method, also `__init__` of an instance whose construction has ended. -/
  method (receiver : Receiver) (f : Ref .function) (args : List Value) :
    (parts.callMethod receiver f args).Proceeds
  construct (cls : Ref .cls) (args : List Value) : (parts.construct cls args).Proceeds
  iterate (v : Value) : (parts.iterate v).Proceeds
  load (name : String) : (Evaluator.load host parts name).Proceeds
  /-- What is left of the body of a class. -/
  classBody {sites : List Site} (scope : Ref .scope) {cls : Ref .cls} (body : List Stmt) :
    .cls cls ∈ sites → (parts.classBody scope cls body).Changes
      fun s s' => Phase.Later ⟨s, sites⟩ ⟨s', sites⟩

lemma Evaluator.ofDepth_proceeds (host : Host) (rounds depth : Nat) :
    (Evaluator.ofDepth (Evaluator.load host) rounds depth).Proceeds host := by
  have hp := Evaluator.ofDepth_tidy host rounds depth
  constructor
  case expr => exact fun scope e => .of_tidy fun _ => hp.expr scope e
  case stmt => exact fun scope s => .of_tidy_in scope fun _ => hp.stmt s fun _ => List.mem_cons_self
  case apply => exact fun callee args => .of_tidy fun _ => hp.apply callee args
  case method => exact fun receiver f args => .of_tidy fun _ => hp.callMethod receiver f args
  case construct => exact fun cls args => .of_tidy fun _ => hp.construct cls args
  case iterate => exact fun v => .of_tidy fun _ => hp.iterate v
  case load => exact fun name => .of_tidy fun _ => hp.load host name
  case classBody =>
    intro sites scope cls body hcls m
    exact Store.Course.later (hp.classBody hcls body m)

/-- Between two turns no place is open. -/
lemma Store.later_hostLaw :
    Eval.HostLaw (Machine.OnStores fun s s' => Phase.Later ⟨s, []⟩ ⟨s', []⟩) where
  trans h h' := Relation.ReflTransGen.trans h h'
  aside h _ := by
    unfold Machine.OnStores
    rw [h]
    exact .refl
  newModule path m := by
    rw [Eval.after_onStore]
    exact (Store.Course.inModule path (.refl _)).later
  evaluate host limits n scope m :=
    Store.Course.later_entering (r := scope)
      (Eval.evaluate_tidy List.mem_cons_self host limits n m)

/-- **One step of hosts**: a session is made, or takes a turn in which a module is opened, a tree is
evaluated or a file is run. -/
inductive Engine.Step (p : Engine) : Engine → Prop
  | newSession (verbose : Bool) (limits : Limits) (cache : Option Nat) :
    Step p (p.newSession verbose limits cache)
  | openModule (i : Nat) (host : Host) (raw : String) :
    Step p (p.turn i (Eval.openModule host raw)).2
  | evaluate (i : Nat) (host : Host) (limits : Limits) (n : Node) (scope : Ref .scope) :
    Step p (p.turn i (Eval.evaluate host limits n scope)).2
  | runFile (i : Nat) (host : Host) (limits : Limits) (raw : String) :
    Step p (p.turn i (Eval.runFile host limits raw)).2

/-- Any number of steps, one after the other. -/
def Engine.Leads : Engine → Engine → Prop := Relation.ReflTransGen Engine.Step

/-- **Whatever hosts do**, the store takes a way that phases can take. -/
theorem Engine.Leads.later {p q : Engine} (h : p.Leads q) :
    Phase.Later ⟨p.store, []⟩ ⟨q.store, []⟩ := by
  have turn {p : Engine} (i : Nat) {α : Type} {x : Eval α}
      (hx : x.Changes fun s s' => Phase.Later ⟨s, []⟩ ⟨s', []⟩) :
      Phase.Later ⟨p.store, []⟩ ⟨(p.turn i x).2.store, []⟩ := by
    rw [Engine.turn_snd]
    exact hx (p.machine i)
  have law := Store.later_hostLaw
  induction h with
  | refl => exact .refl
  | tail _ hstep ih =>
    refine ih.trans ?_
    cases hstep with
    | newSession verbose limits cache => exact .refl
    | openModule i host raw => exact turn i (law.openModule host raw)
    | evaluate i host limits n scope => exact turn i (law.evaluate host limits n scope)
    | runFile i host limits raw => exact turn i (law.runFile host limits raw)

end Wei
