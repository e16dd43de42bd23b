import Wei.Proofs.Extension
import Wei.Session

/-!
Relations between evaluations that all constructs respect.

A construct is put together, in a dozen ways, from evaluations of its parts and operations of its
own. A relation between evaluations that each of these ways respects is a *congruence*: if it
relates two evaluators for the parts, it relates what every construct comes to over the one and
over the other. A law of evaluation is then shown by a few lines on each way of putting
evaluations together, and never by going through the constructs again.

Loading is set apart. Some relations are respected by what a loader does as a whole, but not by
each of its steps: they are *local* congruences, and of them the loader is shown to respect them
by itself.
-/

namespace Wei

/-! ### Which exits may come out -/

/-- Which exits that a construct takes may come out of an evaluation. -/
inductive Leeway where
  | none
  /-- Only that of `return`. -/
  | returns
  /-- Those of `return`, `break` and `continue`. -/
  | all
  deriving DecidableEq, Repr

/-- May the exit come out? -/
def Leeway.lets : Leeway → Exit → Bool
  | .none, .returning _ => false
  | .none, .breaking => false
  | .none, .continuing => false
  | .returns, .breaking => false
  | .returns, .continuing => false
  | _, _ => true

/-- The state without what serves the host, and without what has been printed. -/
def Machine.bare (m : Machine) : Machine :=
  ⟨⟨m.world.store, m.world.cache, ""⟩, m.module, .empty, .blank false, "", [], .empty⟩

/-- The operations of constructs that evaluate no part and come to an end. They do not look at what
serves the host, and extend the store. -/
inductive Eval.Own : {α : Type} → Eval α → Prop
  | pure {α : Type} (a : α) : Own (pure a)
  | look : Own fun m => .ok m.bare m
  | store : Own Eval.store
  | onStore {α : Type} {x : StoreM α} : x.Within Store.Extends → Own (Eval.onStore x)
  | builtin (b : Builtin) (args : List Value) : Own (Eval.onWorld (b.call args))
  | askStore {α : Type} (x : Store → Except Fault α) : Own (Eval.askStore x)
  | atLine (line : Int) : Own (Eval.atLine line)

lemma Eval.Own.onCode {α : Type} {x : StoreM α} (hx : x.Within Store.SameCode) :
    Own (Eval.onStore x) :=
  .onStore (hx.imp fun _ _ h => h.extends')

lemma Eval.Own.onContents {α : Type} {x : StoreM α} (hx : x.Within Store.SameButContents) :
    Own (Eval.onStore x) :=
  .onCode (hx.imp fun _ _ => .of_sameButContents)

/-- The operations with which a loader comes by a program and makes a module of it. -/
inductive Eval.Loading : {α : Type} → Eval α → Prop
  | info (words : List String) : Loading (Eval.info words)
  | parse (host : Host) (text path : String) : Loading (Eval.parse host text path)
  | setCache (cache : ModuleCache) :
    Loading (modify fun m : Machine => { m with world := { m.world with cache := cache } })

/-- A relation between evaluations, for each leeway, that is respected by every way in which
constructs are put together, loading apart. -/
structure LocalCongruence where
  Rel : Leeway → {α : Type} → Eval α → Eval α → Prop
  own {l : Leeway} {α : Type} {x : Eval α} : x.Own → Rel l x x
  exit {l : Leeway} {α : Type} {e : Exit} : l.lets e → Rel l (throw e : Eval α) (throw e)
  bind {l : Leeway} {α β : Type} {x y : Eval α} {f g : α → Eval β} :
    Rel l x y → (∀ a, Rel l (f a) (g a)) → Rel l (x >>= f) (y >>= g)
  widen {l : Leeway} {α : Type} {x y : Eval α} : Rel .none x y → Rel l x y
  loosen {α : Type} {x y : Eval α} : Rel .returns x y → Rel .all x y
  recording {l : Leeway} {α : Type} {x y : Eval α} :
    Rel l x y → Rel l (Eval.recording x) (Eval.recording y)
  withFrame {l : Leeway} {α : Type} {x y : Eval α} (path function : String) :
    Rel l x y → Rel l (Eval.withFrame path function x) (Eval.withFrame path function y)
  withModule {l : Leeway} {α : Type} {x y : Eval α} (r : Ref .module) :
    Rel l x y → Rel l (Eval.withModule r x) (Eval.withModule r y)
  takingReturn {x y : Eval Value} :
    Rel .returns x y → Rel .none (Eval.takingReturn x) (Eval.takingReturn y)
  outsideLoops {α : Type} {x y : Eval α} :
    Rel .all x y → Rel .returns (Eval.outsideLoops x) (Eval.outsideLoops y)
  loopRound {α : Type} {x y : Eval α} :
    Rel .all x y → Rel .returns (Eval.loopRound x) (Eval.loopRound y)

/-- A relation between evaluations that the steps of loading respect as well. -/
structure Congruence extends LocalCongruence where
  loading {l : Leeway} {α : Type} {x : Eval α} : x.Loading → Rel l x x

namespace LocalCongruence

variable (C : LocalCongruence)

/-- Two evaluators are related: whatever they are asked to evaluate. -/
structure Relates (p q : Evaluator) : Prop where
  expr (scope : Ref .scope) (e : Expr) : C.Rel .none (p.expr scope e) (q.expr scope e)
  stmt (scope : Ref .scope) (s : Stmt) : C.Rel .all (p.stmt scope s) (q.stmt scope s)
  walk (v : Value) : C.Rel .none (p.walk v) (q.walk v)

variable {C} {p q : Evaluator} {l : Leeway}

lemma fault {α : Type} (f : Fault) : C.Rel l (Eval.fault f : Eval α) (Eval.fault f) :=
  C.exit (by cases l <;> rfl)

lemma crash {α : Type} (c : Crash) : C.Rel l (throw (.crash c) : Eval α) (throw (.crash c)) :=
  C.exit (by cases l <;> rfl)

lemma orCrash {α : Type} (x : Except Crash α) : C.Rel l (Eval.orCrash x) (Eval.orCrash x) := by
  cases x with
  | ok a => exact C.own (.pure a)
  | error c => exact crash c

/-- An operation of the construct's own comes first. -/
lemma own_bind {α β : Type} {x : Eval α} {f g : α → Eval β} (hx : x.Own)
    (h : ∀ a, C.Rel l (f a) (g a)) : C.Rel l (x >>= f) (x >>= g) :=
  C.bind (C.own hx) h

/-- Something of the state is looked at first that does not serve the host. -/
lemma look_bind {β : Type} {f g : Machine → Eval β} (hf : ∀ m, f m.bare = f m)
    (hg : ∀ m, g m.bare = g m) (h : ∀ m, C.Rel l (f m) (g m)) :
    C.Rel l (get >>= f) (get >>= g) := by
  have hlook {k : Machine → Eval β} (hk : ∀ m, k m.bare = k m) :
      (get >>= k) = (fun m => .ok m.bare m : Eval Machine) >>= k := by
    funext m
    exact congrFun (hk m).symm m
  rw [hlook hf, hlook hg]
  exact own_bind .look h

/-- An operation of the construct's own comes last. -/
lemma bind_pure {α β : Type} {x y : Eval α} (h : C.Rel l x y) (f : α → β) :
    C.Rel l (x >>= fun a => pure (f a)) (y >>= fun a => pure (f a)) :=
  C.bind h fun a => C.own (.pure (f a))

/-- Both branches of a choice are related. -/
lemma ite {α : Type} {c : Prop} [Decidable c] {x y x' y' : Eval α} (h : C.Rel l x y)
    (h' : C.Rel l x' y') : C.Rel l (if c then x else x') (if c then y else y') := by
  split
  · exact h
  · exact h'

/-- Loops whose rounds are related. -/
lemma repeating {x y : Eval Bool} (h : C.Rel l x y) (rounds : Nat) :
    C.Rel l (Eval.repeating x rounds) (Eval.repeating y rounds) := by
  induction rounds with
  | zero => exact C.exit (by cases l <;> rfl)
  | succ rounds ih => exact C.bind h fun _ => ite ih (C.own (.pure ()))

/-- Walks whose bodies are related. -/
lemma walking {x y : Value × Value → Eval Bool} (h : ∀ step, C.Rel l (x step) (y step))
    (rounds : Nat) (walk : Iteration) :
    C.Rel l (Eval.walking x rounds walk) (Eval.walking y rounds walk) := by
  induction rounds generalizing walk with
  | zero => exact C.exit (by cases l <;> rfl)
  | succ rounds ih =>
    refine own_bind .store fun s => ?_
    rcases walk.next? s with _ | ⟨step, rest⟩
    · exact C.own (.pure ())
    · exact C.bind (h step) fun _ => ite (ih rest) (C.own (.pure ()))

namespace Relates

open StoreM

/-! ### Sequences of parts -/

variable (h : C.Relates p q) (scope : Ref .scope)
include h

lemma exprs (es : List Expr) : C.Rel .none (p.exprs scope es) (q.exprs scope es) := by
  induction es with
  | nil => exact C.own (.pure [])
  | cons e rest ih => exact C.bind (h.expr scope e) fun v => bind_pure ih (v :: ·)

lemma expr? (e : Option Expr) : C.Rel .none (p.expr? scope e) (q.expr? scope e) := by
  cases e with
  | none => exact C.own (.pure none)
  | some e => exact bind_pure (h.expr scope e) some

lemma execute (s : Stmt) : C.Rel .all (p.execute scope s) (q.execute scope s) :=
  own_bind (.atLine s.line) fun _ => C.recording (h.stmt scope s)

lemma sequence (last : Value) (body : List Stmt) :
    C.Rel .all (p.sequence scope last body) (q.sequence scope last body) := by
  induction body generalizing last with
  | nil => exact C.own (.pure last)
  | cons s rest ih => exact C.bind (h.execute scope s) fun v => ih v

lemma block (body : List Stmt) : C.Rel .all (p.block scope body) (q.block scope body) :=
  own_bind (.onCode (childScope_sameCode scope)) fun own => h.sequence own .null body

lemma program (t : Program) : C.Rel .none (p.program scope t) (q.program scope t) :=
  C.takingReturn (C.outsideLoops (h.sequence scope .null t.body))

omit scope

/-! ### Calls -/

lemma callFunction (f : Ref .function) (args : List Value) (bindings : List (String × Value)) :
    C.Rel .none (p.callFunction f args bindings) (q.callFunction f args bindings) := by
  refine own_bind .store fun s => ite (fault _) ?_
  refine own_bind (.onCode (childScope_sameCode _)) fun scope => ?_
  refine own_bind (.onCode (bindParameters_sameCode scope _)) fun _ => ?_
  refine C.takingReturn (C.withFrame _ _ (C.outsideLoops ?_))
  exact bind_pure (h.block scope (s.function f).body) fun _ => Value.null

lemma callMethod (receiver : Receiver) (f : Ref .function) (args : List Value) :
    C.Rel .none (p.callMethod receiver f args) (q.callMethod receiver f args) :=
  own_bind (.onCode (receiverBindings_sameCode receiver f)) fun bindings =>
    h.callFunction f args bindings

lemma construct (cls : Ref .cls) (args : List Value) :
    C.Rel .none (p.construct cls args) (q.construct cls args) := by
  refine own_bind (.onCode (newInstance_sameCode cls)) fun this => ?_
  refine own_bind .store fun s => ite (fault _) ?_
  have finish : C.Rel .none
      (Eval.onStore (StoreM.finishInstance this) >>= fun _ => pure (Value.inst this))
      (Eval.onStore (StoreM.finishInstance this) >>= fun _ => pure (Value.inst this)) :=
    bind_pure (C.own (.onCode (finishInstance_sameCode this))) fun _ => Value.inst this
  cases s.findMethod? cls "__init__" with
  | none => exact finish
  | some f => exact C.bind (h.callMethod (.inst this) f args) fun _ => finish

lemma callBound (r : Ref .bound) (args : List Value) :
    C.Rel .none (p.callBound r args) (q.callBound r args) := by
  refine own_bind .store fun s => ?_
  cases s.bound r with
  | text m this => exact C.own (.onContents (textMethod_call_sameButContents m this args))
  | list m this => exact C.own (.onContents (listMethod_call_sameButContents m this args))
  | method this f => exact h.callMethod (.inst this) f args
  | classMethod cls f => exact h.callMethod (.cls cls) f args
  | super _ _ => exact fault _

lemma apply (callee : Value) (args : List Value) :
    C.Rel .none (p.apply callee args) (q.apply callee args) := by
  cases callee with
  | function f => exact h.callFunction f args []
  | bound r => exact h.callBound r args
  | cls r => exact h.construct r args
  | builtin b => exact C.own (.builtin b args)
  | _ => exact own_bind .store fun s => fault _

lemma iterate (v : Value) : C.Rel .none (p.iterate v) (q.iterate v) := by
  refine own_bind .store fun s => ?_
  cases s.iteration? v with
  | some walk => exact C.own (.pure walk)
  | none =>
    cases v with
    | inst r =>
      dsimp only
      cases s.findMethod? (s.inst r).cls "__iter__" with
      | some f => exact C.bind (h.callMethod (.inst r) f []) fun v => h.walk v
      | none => exact fault _
    | _ => exact fault _

/-! ### Expressions -/

omit h in
lemma name (scope : Ref .scope) (x : String) :
    C.Rel l (Evaluator.name scope x) (Evaluator.name scope x) := by
  refine own_bind .store fun s => ?_
  cases s.lookup? scope x with
  | some v => exact C.own (.pure v)
  | none =>
    dsimp only
    cases rootName? x with
    | some v => exact C.own (.pure v)
    | none => exact fault _

omit h in
lemma closure (scope : Ref .scope) (owner : Option (Ref .cls)) (f : FunctionLiteral) :
    C.Rel l (Evaluator.closure scope owner f) (Evaluator.closure scope owner f) :=
  look_bind (fun _ => rfl) (fun _ => rfl) fun _ => C.own (.onStore (newFunction_extends _))

variable (scope : Ref .scope)

lemma entries (acc : Dict) (pairs : List (Expr × Expr)) :
    C.Rel .none (p.entries scope acc pairs) (q.entries scope acc pairs) := by
  induction pairs generalizing acc with
  | nil => exact C.own (.pure acc)
  | cons pair rest ih =>
    refine C.bind (h.expr scope pair.1) fun key => C.bind (orCrash _) fun _ => ?_
    cases key.hashKey? with
    | none => exact own_bind .store fun s => fault _
    | some hash => exact C.bind (h.expr scope pair.2) fun value => ih _

lemma shortCircuit (op : ShortCircuit) (lhs rhs : Expr) :
    C.Rel .none (p.shortCircuit scope op lhs rhs) (q.shortCircuit scope op lhs rhs) := by
  refine C.bind (h.expr scope lhs) fun left => own_bind .store fun s => ?_
  refine ite (C.own (.pure _)) (C.bind (h.expr scope rhs) fun right => ?_)
  exact own_bind .store fun s => C.own (.pure _)

/-- **Every expression respects a congruence**, if the loader does. -/
theorem evalExpr {load : Loader} (hload : ∀ name, C.Rel .none (load p name) (load q name))
    (e : Expr) : C.Rel .none (p.evalExpr load scope e) (q.evalExpr load scope e) := by
  cases e with
  | literal l => exact orCrash _
  | name x => exact name scope x
  | list es =>
    refine C.bind (h.exprs scope es) fun vs => ?_
    exact bind_pure (C.own (.onContents (newList_sameButContents vs))) _
  | dict pairs =>
    refine C.bind (h.entries scope .empty pairs) fun d => ?_
    exact bind_pure (C.own (.onContents (newDict_sameButContents d))) _
  | function f => exact bind_pure (closure scope none f) _
  | unary op e => exact C.bind (h.expr scope e) fun v => C.own (.askStore _)
  | binary op lhs rhs =>
    exact C.bind (h.expr scope lhs) fun _ => C.bind (h.expr scope rhs) fun _ => C.own (.askStore _)
  | shortCircuit op lhs rhs => exact h.shortCircuit scope op lhs rhs
  | call callee args =>
    exact C.bind (h.expr scope callee) fun f => C.bind (h.exprs scope args) fun vs => h.apply f vs
  | item subject index =>
    refine C.bind (h.expr scope subject) fun _ => C.bind (h.expr scope index) fun _ => ?_
    exact C.bind (orCrash _) fun _ => C.own (.askStore _)
  | attr subject x =>
    refine C.bind (h.expr scope subject) fun v => ?_
    exact C.own (.onContents (getAttribute_sameButContents v x))
  | load path =>
    refine C.bind (h.expr scope path) fun v => ?_
    cases v with
    | str t => exact C.bind (orCrash _) fun x => hload x
    | _ => exact own_bind .store fun s => fault _

/-! ### Definitions of classes -/

lemma parentClass (x : String) (parent : Option Expr) :
    C.Rel .none (p.parentClass scope x parent) (q.parentClass scope x parent) := by
  cases parent with
  | none => exact C.own (.pure _)
  | some e =>
    refine C.bind (h.expr scope e) fun v => ?_
    cases v with
    | cls r => exact C.own (.pure r)
    | _ => exact own_bind .store fun s => fault _

lemma declareMember (cls : Ref .cls) (a : Action) :
    C.Rel .none (p.declareMember scope cls a) (q.declareMember scope cls a) := by
  cases a with
  | member x value constant classLevel =>
    refine C.bind (h.expr? scope value) fun v => ite ?_ ?_
    · exact bind_pure (C.own (.onCode (addClassMember_sameCode cls x _ constant))) _
    · exact bind_pure (C.own (.onCode (addMember_sameCode cls x v constant))) _
  | method f classLevel =>
    refine C.bind (closure scope (some cls) f) fun r => ite ?_ ?_
    · exact bind_pure (C.own (.onCode (addClassMethod_sameCode cls _ r))) _
    · exact bind_pure (C.own (.onCode (addMethod_sameCode cls _ r))) _
  | _ => exact crash _

lemma classBody (cls : Ref .cls) (body : List Stmt) :
    C.Rel .none (p.classBody scope cls body) (q.classBody scope cls body) := by
  induction body with
  | nil => exact C.own (.pure _)
  | cons s rest ih =>
    refine own_bind (.atLine s.line) fun _ => ?_
    exact C.bind (C.recording (h.declareMember scope cls s.action)) fun _ => ih

lemma defineClass (x : String) (parent : Option Expr) (body : List Stmt) :
    C.Rel .none (p.defineClass scope x parent body) (q.defineClass scope x parent body) := by
  refine C.bind (h.parentClass scope x parent) fun above => ?_
  refine own_bind (.onCode (newClass_sameCode _)) fun cls => ?_
  exact own_bind (.onCode (declare_sameCode scope x _ true)) fun _ => h.classBody scope cls body

/-! ### Statements -/

lemma assign (value : Value) (t : Target) :
    C.Rel .none (p.assign scope value t) (q.assign scope value t) := by
  cases t with
  | name x => exact C.own (.onCode (assign_sameCode scope x value))
  | item subject index =>
    refine C.bind (h.expr scope subject) fun v => C.bind (h.expr scope index) fun i => ?_
    exact C.bind (orCrash _) fun _ => C.own (.onContents (setItem_sameButContents v i value))
  | attr subject x =>
    refine C.bind (h.expr scope subject) fun v => ?_
    exact C.own (.onCode (setAttribute_sameCode v x value))
  | loop subject address => exact C.bind (h.expr scope subject) fun _ => fault _
  | invalid => exact crash _

lemma branches (otherwise : Option (List Stmt)) (bs : List (Expr × List Stmt)) :
    C.Rel .all (p.branches scope otherwise bs) (q.branches scope otherwise bs) := by
  induction bs with
  | nil =>
    cases otherwise with
    | none => exact C.own (.pure _)
    | some body => exact h.block scope body
  | cons b rest ih =>
    refine C.bind (C.widen (h.expr scope b.1)) fun test => own_bind .store fun s => ?_
    exact ite (h.block scope b.2) ih

lemma whileRound (condition : Expr) (body : List Stmt) :
    C.Rel .returns (p.whileRound scope condition body) (q.whileRound scope condition body) := by
  refine C.bind (C.widen (h.expr scope condition)) fun test => own_bind .store fun s => ?_
  exact ite (C.loopRound (h.block scope body)) (C.own (.pure false))

lemma eachRound (targets : List String) (body : List Stmt) (constant : Bool)
    (step : Value × Value) :
    C.Rel .returns (p.eachRound scope targets body constant step)
      (q.eachRound scope targets body constant step) := by
  refine ite (fault _) (own_bind (.onCode (childScope_sameCode scope)) fun own => ?_)
  refine own_bind (.onCode (declareAll_sameCode own constant _)) fun _ => ?_
  exact C.loopRound (h.block own body)

omit h scope in
lemma exportNames (names : List String) :
    C.Rel l (Evaluator.exportNames names) (Evaluator.exportNames names) := by
  refine look_bind (fun _ => rfl) (fun _ => rfl) fun m => ?_
  cases m.module with
  | none => exact fault _
  | some r => exact C.own (.onCode (exportNames_sameCode r names))

/-- **Every statement respects a congruence.** -/
theorem evalAction (rounds : Nat) (a : Action) :
    C.Rel .all (p.evalAction rounds scope a) (q.evalAction rounds scope a) := by
  cases a with
  | block body => exact h.block scope body
  | declare x value constant =>
    refine C.bind (C.widen (h.expr? scope value)) fun v => ?_
    exact bind_pure (C.own (.onCode (declare_sameCode scope x _ constant))) _
  | assign target value =>
    refine C.bind (C.widen (h.expr scope value)) fun v => ?_
    exact bind_pure (C.widen (h.assign scope v target)) _
  | eval e => exact C.widen (h.expr scope e)
  | ret value => exact C.bind (C.widen (h.expr? scope value)) fun v => C.exit rfl
  | branch bs otherwise => exact h.branches scope otherwise bs
  | loop condition body =>
    exact bind_pure (C.loosen (repeating (h.whileRound scope condition body) rounds)) _
  | each targets subject body constant =>
    refine C.bind (C.widen (h.expr scope subject)) fun v => ?_
    refine C.bind (C.widen (h.iterate v)) fun walk => ?_
    exact bind_pure (C.loosen (walking (h.eachRound scope targets body constant) rounds walk)) _
  | breakLoop => exact C.exit rfl
  | continueLoop => exact C.exit rfl
  | define f =>
    refine C.bind (closure scope none f) fun r => ?_
    exact bind_pure (C.own (.onCode (declare_sameCode scope _ _ false))) _
  | classDef x parent body => exact C.widen (h.defineClass scope x parent body)
  | member _ _ _ _ => exact crash _
  | method _ _ => exact crash _
  | exports names => exact bind_pure (exportNames names) _

lemma node (n : Node) : C.Rel .all (Eval.node p scope n) (Eval.node q scope n) := by
  cases n with
  | program t => exact C.widen (h.program scope t)
  | stmt s => exact h.execute scope s
  | expr e => exact C.widen (h.expr scope e)

omit scope

/-! ### Evaluators -/

/-- Going one level deeper respects a congruence. -/
theorem deepen {load : Loader} (hload : ∀ name, C.Rel .none (load p name) (load q name))
    (rounds : Nat) : C.Relates (p.deepen load rounds) (q.deepen load rounds) where
  expr scope e := h.evalExpr scope hload e
  stmt scope s := h.evalAction scope rounds s.action
  walk v := h.iterate v

end Relates

/-- An evaluator of any depth is related to itself, if the loader respects the congruence. -/
theorem relates_ofDepth (C : LocalCongruence) {load : Loader}
    (hload : ∀ p, C.Relates p p → ∀ name, C.Rel .none (load p name) (load p name))
    (rounds depth : Nat) : C.Relates (.ofDepth load rounds depth) (.ofDepth load rounds depth) := by
  induction depth with
  | zero => exact ⟨fun _ _ => C.exit rfl, fun _ _ => C.exit rfl, fun _ => C.exit rfl⟩
  | succ depth ih => exact ih.deepen (hload _ ih) rounds

end LocalCongruence

/-! ### Loading -/

section

open LocalCongruence

variable {C : Congruence} {p q : Evaluator} {l : Leeway}

lemma Congruence.newCachedModule (path : String) :
    C.Rel l (Eval.newCachedModule path) (Eval.newCachedModule path) := by
  refine own_bind (.onCode (StoreM.newModuleAt_sameCode path)) fun r => ?_
  refine look_bind (fun _ => rfl) (fun _ => rfl) fun m => ?_
  exact C.bind (orCrash _) fun cache => bind_pure (C.loading (.setCache cache)) fun _ => r

lemma Congruence.readProgram (host : Host) (path : String) :
    C.Rel l (Eval.readProgram host path) (Eval.readProgram host path) := by
  refine C.bind (orCrash _) fun read => ?_
  cases read with
  | error refusal => exact fault _
  | ok text =>
    refine C.bind (C.loading (.parse host text path)) fun parsed => ?_
    cases parsed with
    | crash c => exact crash c
    | syntaxError message => exact fault _
    | program t => exact C.own (.pure t)

lemma LocalCongruence.Relates.load (h : C.Relates p q) (host : Host) (name : String) :
    C.Rel .none (Evaluator.load host p name) (Evaluator.load host q name) := by
  refine C.bind (orCrash _) fun path => ite (fault _) ?_
  refine look_bind (fun _ => rfl) (fun _ => rfl) fun m => ?_
  cases m.world.cache.find? path.text with
  | some r => exact C.own (.pure _)
  | none =>
    refine C.bind (C.loading (.info _)) fun _ => C.bind (C.readProgram host path.text) fun t => ?_
    refine C.bind (C.newCachedModule path.text) fun r => own_bind .store fun s => ?_
    exact bind_pure (C.withModule r (C.withFrame _ _ (h.program _ t))) fun _ => Value.module r

/-- An evaluator of any depth is related to itself. -/
theorem Congruence.relates_ofDepth (C : Congruence) (host : Host) (rounds depth : Nat) :
    C.Relates (.ofDepth (Evaluator.load host) rounds depth)
      (.ofDepth (Evaluator.load host) rounds depth) :=
  C.toLocalCongruence.relates_ofDepth (fun _ h => h.load host) rounds depth

end

end Wei
