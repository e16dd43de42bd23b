import Wei.Proofs.Reachable
import Wei.Proofs.Telling

/-!
The evaluator in direct style tells what the evaluator by exits comes to, construct by construct
and from there at any depth. So what is known of the one holds of the other.
-/

namespace Wei

open Eval (Tells)

/-- The evaluator in direct style tells what the other, which is sound, comes to. -/
structure Direct.Follows (d : Direct) (p : Evaluator) : Prop where
  sound : p.Sound (.lenient false)
  confined : Congruence.confinement.Relates p p
  expr {m : Machine} {scope : Ref .scope} (e : Expr) :
    scope.Live m.census → (d.expr scope e).Tells .value (p.expr scope e) m
  stmt {m : Machine} {scope : Ref .scope} (s : Stmt) :
    scope.Live m.census → (d.stmt scope s).Tells .value (p.stmt scope s) m
  walk {m : Machine} {v : Value} :
    v.Live m.census → (d.walk v).Tells .attempt (p.walk v) m

namespace Direct.Follows

variable {d : Direct} {p : Evaluator} {m : Machine} {scope : Ref .scope} (h : d.Follows p)
include h

/-! ### Sequences of parts -/

/-- An expression has been evaluated, and its answer is looked at. -/
lemma exprStep {α β : Type} {T : Telling α β} {g : Value → Eval β} {f : Value → Eval α}
    (e : Expr) (hscope : scope.Live m.census)
    (hg : ∀ v m₁, m.census ≤ m₁.census → v.Live m₁.census → (g v).Tells T (f v) m₁) :
    Tells T (d.expr scope e >>= fun v => if v.isError then pure (T.problem v) else g v)
      (p.expr scope e >>= f) m :=
  .step (h.expr e hscope) (h.sound.expr hscope (.of_lax _)) (h.confined.expr scope e m) hg

lemma exprs (hscope : scope.Live m.census) (es : List Expr) :
    (d.exprs scope es).Tells .attempt (p.exprs scope es) m := by
  induction es generalizing m with
  | nil => exact .pure rfl
  | cons e rest ih =>
    refine h.exprStep e hscope fun v m₁ hn hv => ?_
    have hscope₁ := hscope.mono hn
    exact .attemptStep (fun _ => rfl) (ih hscope₁) (h.sound.exprs hscope₁ (.of_lax _))
      fun vs m₂ _ _ => .pure rfl

lemma expr? (hscope : scope.Live m.census) (e : Option Expr) :
    (d.expr? scope e).Tells .attempt (p.expr? scope e) m := by
  cases e with
  | none => exact .pure rfl
  | some e => exact h.exprStep e hscope fun v m₁ _ _ => .pure rfl

lemma execute (hscope : scope.Live m.census) (s : Stmt) :
    (d.execute scope s).Tells .value (p.execute scope s) m := by
  refine .bind (fun _ _ _ => nofun) (.atLine s.line) fun _ m₁ hn _ => ?_
  have hscope₁ := hscope.mono hn
  exact .keeping (h.stmt s hscope₁) (h.sound.stmt hscope₁ (.of_lax _))

lemma sequence (hscope : scope.Live m.census) (last : Value) (body : List Stmt) :
    (d.sequence scope last body).Tells .value (p.sequence scope last body) m := by
  induction body generalizing m last with
  | nil => exact .pure rfl
  | cons s rest ih =>
    exact .sequenceStep (h.execute hscope s) (h.sound.execute hscope (.of_lax _))
      fun v m₁ hn _ => ih (hscope.mono hn) v

lemma block (hscope : scope.Live m.census) (body : List Stmt) :
    (d.block scope body).Tells .value (p.block scope body) m :=
  .bind (.onStore fun _ => ⟨_, _, rfl⟩) (.onStore (StoreM.childScope_does hscope))
    fun _ _ _ hown => h.sequence hown.1 .null body

lemma topLevel (hscope : scope.Live m.census) (last : Value) (body : List Stmt) :
    (d.topLevel scope last body).Tells .value
      (Eval.takingReturn (Eval.outsideLoops (p.sequence scope last body))) m := by
  induction body generalizing m last with
  | nil => exact fun _ => rfl
  | cons s rest ih =>
    intro hm
    have hd := h.execute hscope s hm
    have hx := h.sound.execute hscope (.of_lax s.conforms) hm
    unfold Direct.topLevel Evaluator.sequence
    show EStateM.bind (d.execute scope s) _ m =
      Telling.value.tell
        (Eval.takingReturn (Eval.outsideLoops (EStateM.bind (p.execute scope s) _)) m)
    unfold Eval.takingReturn Eval.outsideLoops EStateM.bind
    beta_reduce
    rw [hd]
    generalize p.execute scope s m = r at hx ⊢
    cases r with
    | ok v m₁ =>
      have hv := hx.2
      have ih := ih (hscope.mono (hx.1.census_le hm)) v (hx.1.sound hm)
      cases v with
      | error f => exact hv.elim
      | returned v => exact hv.elim
      | breaking => exact hv.elim
      | continuing => exact hv.elim
      | _ => exact ih
    | error e m₁ => cases e <;> rfl

lemma program (hscope : scope.Live m.census) (t : Program) :
    (d.program scope t).Tells .value (p.program scope t) m :=
  h.topLevel hscope .null t.body

/-! ### Calls -/

lemma callFunction {f : Ref .function} (hf : f.Live m.census) {args : List Value}
    (hargs : ∀ v ∈ args, v.Live m.census) {bindings : List (String × Value)}
    (hb : ∀ b ∈ bindings, b.2.Live m.census) :
    (d.callFunction f args bindings).Tells .value (p.callFunction f args bindings) m := by
  refine .of_sound fun hm => .store_bind (.ite (fun _ => .fault rfl) fun _ => ?_)
  have hscope := hm.store.closure_live hf
  refine .bind (.onStore fun _ => ⟨_, _, rfl⟩) (.onStore (StoreM.childScope_does hscope))
    fun own m₁ hn₁ hown => ?_
  have hbound : ∀ b ∈ bindings ++ (m.world.store.function f).params.zip args,
      b.2.Live m₁.census := by
    intro b hmem
    rcases List.mem_append.mp hmem with hmem | hmem
    · exact (hb b hmem).mono hn₁
    · exact (hargs b.2 (List.of_mem_zip hmem).2).mono hn₁
  refine .bind (.onStore (StoreM.bindParameters_faultless own _))
    (.onStore (StoreM.bindParameters_does hown.1 hown.2 hbound)) fun _ m₂ hn₂ _ => ?_
  refine .called (h.block ?_ _) (h.sound.block ?_ (.of_lax _))
  · exact hown.1.mono hn₂
  · exact hown.1.mono hn₂

lemma callMethod {receiver : Receiver} (hr : receiver.value.Live m.census) {f : Ref .function}
    (hf : f.Live m.census) (hcalls : m.world.store.Calls receiver f) {args : List Value}
    (hargs : ∀ v ∈ args, v.Live m.census) :
    (d.callMethod receiver f args).Tells .value (p.callMethod receiver f args) m :=
  .bind (.onStore (StoreM.receiverBindings_faultless receiver f))
    (.onStore (Evaluator.Sound.receiverBindings_does hr hf hcalls)) fun _ _ hn hb =>
      h.callFunction (hf.mono hn) (fun v hv => (hargs v hv).mono hn) hb

lemma construct {c : Ref .cls} (hc : c.Live m.census) {args : List Value}
    (hargs : ∀ v ∈ args, v.Live m.census) :
    (d.construct c args).Tells .value (p.construct c args) m := by
  refine .bind (.onStore fun _ => ⟨_, _, rfl⟩) (.onStore (StoreM.newInstance_does hc))
    fun this m₁ hn₁ hnew => .of_sound fun hm₁ => ?_
  obtain ⟨hthis, hcls⟩ := hnew
  refine .store_bind ?_
  dsimp only
  refine .ite (fun _ => .fault rfl) fun _ => ?_
  have finish (m₂ : Machine) : (finish this).Tells .value (do
      Eval.onStore (StoreM.finishInstance this)
      pure (.inst this)) m₂ :=
    .answer (Eval.Confined.bind (.onStore _) (fun _ => .own (.pure _)) m₂)
  cases hinit : m₁.world.store.findMethod? c "__init__" with
  | none => exact finish m₁
  | some f =>
    have hr : (Receiver.inst this).value.Live m₁.census := hthis
    have hf := hm₁.store.findMethod?_live (hc.mono hn₁) hinit
    have hcalls : m₁.world.store.Calls (.inst this) f := .method (hcls.symm ▸ hinit)
    have hargs₁ : ∀ v ∈ args, v.Live m₁.census := fun v hv => (hargs v hv).mono hn₁
    exact .step (h.callMethod hr hf hcalls hargs₁) (h.sound.callMethod hr hf hcalls hargs₁)
      (h.confined.callMethod (.inst this) f args m₁) fun _ m₂ _ _ => finish m₂

lemma callBound {r : Ref .bound} (hr : r.Live m.census) {args : List Value}
    (hargs : ∀ v ∈ args, v.Live m.census) :
    (d.callBound r args).Tells .value (p.callBound r args) m := by
  refine .of_sound fun hm => .store_bind ?_
  cases hb : m.world.store.bound r with
  | text method this => exact .answer (Eval.Confined.onStore _ m)
  | list method this => exact .answer (Eval.Confined.onStore _ m)
  | method this f =>
    have hcell := hm.store.bound_sound hr hb
    exact h.callMethod (hcell.values _ List.mem_cons_self)
      (hcell.links ⟨.function, f⟩ List.mem_cons_self) (.boundMethod hr hb) hargs
  | classMethod c f =>
    have hcell := hm.store.bound_sound hr hb
    exact h.callMethod (hcell.values _ List.mem_cons_self)
      (hcell.links ⟨.function, f⟩ List.mem_cons_self) (.boundClassMethod hr hb) hargs
  | super owner receiver => exact .fault rfl

lemma apply {callee : Value} (hc : callee.Live m.census) {args : List Value}
    (hargs : ∀ v ∈ args, v.Live m.census) :
    (d.apply callee args).Tells .value (p.apply callee args) m := by
  cases callee with
  | function f => exact h.callFunction hc hargs nofun
  | bound r => exact h.callBound hc hargs
  | cls c => exact h.construct hc hargs
  | builtin b => exact .answer (Eval.Confined.own (.builtin b args) m)
  | _ => exact .store_bind (.fault rfl)

lemma iterate {v : Value} (hv : v.Live m.census) :
    (d.iterate v).Tells .attempt (p.iterate v) m := by
  refine .of_sound fun hm => .store_bind ?_
  cases hwalk : m.world.store.iteration? v with
  | some walk => exact .pure rfl
  | none =>
    cases v with
    | inst r =>
      dsimp only
      cases hf : m.world.store.findMethod? (m.world.store.inst r).cls "__iter__" with
      | none => exact .fault rfl
      | some f =>
        have hflive := hm.store.findMethod?_live (hm.store.class_live hv) hf
        have hr : (Receiver.inst r).value.Live m.census := hv
        exact .step (h.callMethod hr hflive (.method hf) nofun)
          (h.sound.callMethod hr hflive (.method hf) nofun)
          (h.confined.callMethod (.inst r) f [] m) fun w m₁ _ hw => h.walk hw
    | _ => exact .fault rfl

/-! ### Imports -/

lemma load (host : Host) (name : String) :
    (d.load host name).Tells .value (Evaluator.load host p name) m := by
  refine .orCrash_bind fun path => .ite (fun _ => .fault rfl) fun _ => .get_bind ?_
  cases hcache : m.world.cache.find? path.text with
  | some r => exact .pure rfl
  | none =>
    refine .aside_bind rfl rfl rfl ?_
    refine .attemptStep_of_eq (fun _ => rfl)
      (.attempt (Congruence.confinement.readProgram host path.text _))
      (Eval.readProgram_does (fun _ _ _ _ => .of_lax _) (fun _ _ => trivial) path.text)
      fun t m₁ hread _ _ => ?_
    have hnew : m₁.world.cache.contains path.text = false := by
      rw [Eval.readProgram_world hread]
      simp [OrderedMap.contains, hcache]
    refine .bind (Eval.newCachedModule_faultless path.text) (Eval.newCachedModule_does hnew)
      fun r m₂ _ hr => .of_sound fun hm₂ => .store_bind ?_
    have hscope := hm₂.store.moduleScope_live hr
    refine .step (.withModule hr (.withFrame (h.program ?_ t)))
      (.withModule hr (.withFrame (h.sound.program ?_ (.of_lax _))))
      (Eval.Confined.withModule (.withFrame (h.confined.program _ t) _ _) r m₂)
      fun _ _ _ _ => .pure rfl
    · exact hscope
    · exact hscope

/-! ### Expressions -/

lemma entries (hscope : scope.Live m.census) (acc : Dict) (pairs : List (Expr × Expr)) :
    (d.entries scope acc pairs).Tells .attempt (p.entries scope acc pairs) m := by
  induction pairs generalizing m acc with
  | nil => exact .pure rfl
  | cons pair rest ih =>
    obtain ⟨k, v⟩ := pair
    refine h.exprStep k hscope fun key m₁ hn₁ _ => .orCrash_bind fun _ => ?_
    cases key.hashKey? with
    | none => exact .store_bind (.fault rfl)
    | some hash =>
      have hscope₁ := hscope.mono hn₁
      exact h.exprStep v hscope₁ fun value m₂ hn₂ _ => ih (hscope₁.mono hn₂) _

lemma shortCircuit (hscope : scope.Live m.census) (op : ShortCircuit) (lhs rhs : Expr) :
    (d.shortCircuit scope op lhs rhs).Tells .value (p.shortCircuit scope op lhs rhs) m := by
  refine h.exprStep lhs hscope fun left m₁ hn _ => .store_bind ?_
  refine .ite (fun _ => .pure rfl) fun _ => ?_
  exact h.exprStep rhs (hscope.mono hn) fun right m₂ _ _ => .store_bind (.pure rfl)

omit h in
lemma closure_faultless (scope : Ref .scope) (owner : Option (Ref .cls)) (f : FunctionLiteral) :
    (Evaluator.closure scope owner f).Faultless :=
  .bind (fun _ _ _ => nofun) fun _ => .onStore fun _ => ⟨_, _, rfl⟩

lemma evalExpr (host : Host) (hscope : scope.Live m.census) (e : Expr) :
    (d.evalExpr host scope e).Tells .value (p.evalExpr (Evaluator.load host) scope e) m := by
  cases e with
  | literal l =>
    show Tells .value (Eval.orCrash l.value) (Eval.orCrash l.value) m
    cases l.value with
    | ok v => exact .pure rfl
    | error c => exact .halt rfl
  | name x =>
    exact .answer (LocalCongruence.Relates.name (C := Congruence.confinement.toLocalCongruence)
      scope x m)
  | list es =>
    refine .attemptStep (fun _ => rfl) (h.exprs hscope es) (h.sound.exprs hscope (.of_lax _))
      fun vs m₁ _ hvs => ?_
    exact .bind (.onStore fun _ => ⟨_, _, rfl⟩) (.onStore (StoreM.newList_does hvs))
      fun _ _ _ _ => .pure rfl
  | dict pairs =>
    refine .attemptStep (fun _ => rfl) (h.entries hscope .empty pairs)
      (h.sound.entries hscope (by rintro e ⟨⟩) (.of_lax _)) fun dict m₁ _ hdict => ?_
    exact .bind (.onStore fun _ => ⟨_, _, rfl⟩) (.onStore (StoreM.newDict_does hdict))
      fun _ _ _ _ => .pure rfl
  | function f =>
    refine .bind (closure_faultless scope none f)
      (Evaluator.Sound.closure_does hscope (by rintro c ⟨⟩) (.of_lax _)) fun _ _ _ _ => .pure rfl
  | unary op e =>
    exact h.exprStep e hscope fun v m₁ _ _ => .answer (Eval.Confined.own (.askStore _) m₁)
  | binary op lhs rhs =>
    refine h.exprStep lhs hscope fun left m₁ hn _ => ?_
    exact h.exprStep rhs (hscope.mono hn) fun right m₂ _ _ =>
      .answer (Eval.Confined.own (.askStore _) m₂)
  | shortCircuit op lhs rhs => exact h.shortCircuit hscope op lhs rhs
  | call callee args =>
    refine h.exprStep callee hscope fun f m₁ hn hf => ?_
    have hscope₁ := hscope.mono hn
    exact .attemptStep (fun _ => rfl) (h.exprs hscope₁ args)
      (h.sound.exprs hscope₁ (.of_lax _)) fun vs m₂ hn₂ hvs => h.apply (hf.mono hn₂) hvs
  | item subject index =>
    refine h.exprStep subject hscope fun v m₁ hn _ => ?_
    refine h.exprStep index (hscope.mono hn) fun i m₂ _ _ => .orCrash_bind fun _ => ?_
    exact .answer (Eval.Confined.own (.askStore _) m₂)
  | attr subject x =>
    exact h.exprStep subject hscope fun v m₁ _ _ => .answer (Eval.Confined.onStore _ m₁)
  | load path =>
    refine h.exprStep path hscope fun v m₁ _ _ => ?_
    cases v with
    | str text => exact .orCrash_bind fun name => h.load host name
    | _ => exact .store_bind (.fault rfl)

/-! ### Definitions of classes -/

lemma parentClass (hscope : scope.Live m.census) (x : String) (e : Option Expr) :
    (d.parentClass scope x e).Tells .attempt (p.parentClass scope x e) m := by
  cases e with
  | none => exact .pure rfl
  | some e =>
    refine h.exprStep e hscope fun v m₁ _ _ => ?_
    cases v with
    | cls c => exact .pure rfl
    | _ => exact .store_bind (.fault rfl)

lemma declareMember (hscope : scope.Live m.census) {c : Ref .cls} (hc : c.Live m.census)
    (a : Action) : (d.declareMember scope c a).Tells .value (p.declareMember scope c a) m := by
  cases a with
  | member x value constant classLevel =>
    refine .attemptStep (fun _ => rfl) (h.expr? hscope value) (h.sound.expr? hscope (.of_lax _))
      fun v m₁ _ _ => ?_
    cases classLevel with
    | true => exact .thenNull (.change _)
    | false => exact .thenNull (.change _)
  | method f classLevel =>
    have howner : ∀ c' ∈ some c, c'.Live m.census := by
      rintro c' ⟨⟩
      exact hc
    refine .bind (closure_faultless scope (some c) f)
      (Evaluator.Sound.closure_does hscope howner (.of_lax _)) fun r m₁ _ _ => ?_
    cases classLevel with
    | true => exact .thenNull (.change _)
    | false => exact .thenNull (.change _)
  | _ => exact .halt rfl

lemma classBody (hscope : scope.Live m.census) {c : Ref .cls} (hc : c.Live m.census)
    (body : List Stmt) : (d.classBody scope c body).Tells .value (p.classBody scope c body) m := by
  induction body generalizing m with
  | nil => exact .pure rfl
  | cons a rest ih =>
    refine .bind (fun _ _ _ => nofun) (.atLine a.line) fun _ m₁ hn₁ _ => ?_
    have hscope₁ := hscope.mono hn₁
    have hc₁ := hc.mono hn₁
    have hdoes := h.sound.declareMember hscope₁ hc₁ (.of_lax a.action.declares)
    exact .step (.keeping (h.declareMember hscope₁ hc₁ a.action) hdoes) (.recording hdoes)
      (Eval.Confined.recording (h.confined.declareMember scope c a.action) m₁)
      fun _ m₂ hn₂ _ => ih (hscope₁.mono hn₂) (hc₁.mono hn₂)

lemma defineClass (hscope : scope.Live m.census) (x : String) (parent : Option Expr)
    (body : List Stmt) :
    (d.defineClass scope x parent body).Tells .value (p.defineClass scope x parent body) m := by
  refine .attemptStep (fun _ => rfl) (h.parentClass hscope x parent)
    (h.sound.parentClass hscope x (.of_lax _)) fun above m₁ hn₁ habove => ?_
  refine .bind (.onStore fun _ => ⟨_, _, rfl⟩) (.onStore (StoreM.newClass_does x habove))
    fun c m₂ hn₂ hc => ?_
  have hscope₂ := hscope.mono (hn₁.trans hn₂)
  have hvalue : (Value.cls c).Live m₂.census := hc
  refine .effectStep (.change _) (.onStore (StoreM.declare_does hscope₂ x hvalue true))
    (Eval.Confined.onStore _ m₂) fun m₃ hn₃ => ?_
  exact h.classBody (hscope₂.mono hn₃) (hc.mono hn₃) body

/-! ### Statements -/

lemma assign (hscope : scope.Live m.census) (v : Value) (t : Target) :
    (d.assign scope v t).Tells .effect (p.assign scope v t) m := by
  cases t with
  | name x => exact .change _
  | item subject index =>
    refine h.exprStep subject hscope fun w m₁ hn _ => ?_
    exact h.exprStep index (hscope.mono hn) fun i m₂ _ _ => .orCrash_bind fun _ => .change _
  | attr subject x => exact h.exprStep subject hscope fun w m₁ _ _ => .change _
  | loop subject address => exact h.exprStep subject hscope fun _ m₁ _ _ => .fault rfl
  | invalid => exact .halt rfl

lemma branches (hscope : scope.Live m.census) (otherwise : Option (List Stmt))
    (bs : List (Expr × List Stmt)) :
    (d.branches scope otherwise bs).Tells .value (p.branches scope otherwise bs) m := by
  induction bs generalizing m with
  | nil =>
    cases otherwise with
    | none => exact .pure rfl
    | some body => exact h.block hscope body
  | cons b rest ih =>
    obtain ⟨condition, body⟩ := b
    refine h.exprStep condition hscope fun test m₁ hn _ => .store_bind ?_
    exact .ite (fun _ => h.block (hscope.mono hn) body) fun _ => ih (hscope.mono hn)

lemma whileLoop (hscope : scope.Live m.census) (condition : Expr) (body : List Stmt)
    (rounds : Nat) :
    (d.whileLoop scope condition body rounds).Tells .effect
      (Eval.repeating (p.whileRound scope condition body) rounds) m := by
  induction rounds generalizing m with
  | zero => exact .halt rfl
  | succ rounds ih =>
    unfold Eval.repeating Evaluator.whileRound
    rw [bind_assoc]
    refine h.exprStep condition hscope fun test m₁ hn _ => ?_
    have hscope₁ := hscope.mono hn
    rw [bind_assoc]
    refine .store_bind ?_
    by_cases htruth : m₁.world.store.truth test = true
    · rw [if_pos htruth, if_pos htruth]
      exact .afterRound (h.block hscope₁ body) (h.sound.block hscope₁ (.of_lax _))
        fun m₂ hn₂ => ih (hscope₁.mono hn₂)
    · rw [if_neg htruth, if_neg htruth]
      exact .pure rfl

lemma eachLoop (hscope : scope.Live m.census) (targets : List String) (body : List Stmt)
    (constant : Bool) (rounds : Nat) {walk : Iteration} (hwalk : walk.Live m.census) :
    (d.eachLoop scope targets body constant rounds walk).Tells .effect
      (Eval.walking (p.eachRound scope targets body constant) rounds walk) m := by
  induction rounds generalizing m walk with
  | zero => exact .halt rfl
  | succ rounds ih =>
    refine .of_sound fun hm => .store_bind ?_
    cases hnext : walk.next? m.world.store with
    | none => exact .pure rfl
    | some next =>
      obtain ⟨step, rest⟩ := next
      obtain ⟨hstep, hrest⟩ := hm.store.next?_live hwalk hnext
      unfold Evaluator.eachRound
      dsimp only
      by_cases hlen : targets.length ≠ 2
      · rw [if_pos hlen, if_pos hlen]
        exact .fault rfl
      · rw [if_neg hlen, if_neg hlen, bind_assoc]
        refine .bind (.onStore fun _ => ⟨_, _, rfl⟩) (.onStore (StoreM.childScope_does hscope))
          fun own m₁ hn₁ hown => ?_
        have hb := Evaluator.Sound.live_of_mem_zip targets
          ⟨hstep.1.mono hn₁, hstep.2.mono hn₁⟩
        rw [bind_assoc]
        refine .effectStep (.change _) (.onStore (StoreM.declareAll_does hown.1 constant hb))
          (Eval.Confined.onStore _ m₁) fun m₂ hn₂ => ?_
        have hown₂ := hown.1.mono hn₂
        refine .afterRound (h.block hown₂ body) (h.sound.block hown₂ (.of_lax _)) fun m₃ hn₃ => ?_
        have hn := (hn₁.trans hn₂).trans hn₃
        exact ih (hscope.mono hn) (hrest.mono hn)

omit h in
lemma exportNames (names : List String) :
    (Direct.exportNames names).Tells .effect (Evaluator.exportNames names) m := by
  refine .get_bind ?_
  cases m.module with
  | none => exact .fault rfl
  | some r => exact .change _

lemma evalAction (rounds : Nat) (hscope : scope.Live m.census) (a : Action) :
    (d.evalAction rounds scope a).Tells .value (p.evalAction rounds scope a) m := by
  cases a with
  | block body => exact h.block hscope body
  | declare x value constant =>
    exact .attemptStep (fun _ => rfl) (h.expr? hscope value) (h.sound.expr? hscope (.of_lax _))
      fun v m₁ _ _ => .thenNull (.change _)
  | assign target value =>
    exact h.exprStep value hscope fun v m₁ hn _ =>
      .thenNull (h.assign (hscope.mono hn) v target)
  | eval e => exact h.expr e hscope
  | ret value =>
    exact .attemptStep (fun _ => rfl) (h.expr? hscope value) (h.sound.expr? hscope (.of_lax _))
      fun v m₁ _ _ => .exit rfl rfl
  | branch bs otherwise => exact h.branches hscope otherwise bs
  | loop condition body => exact .thenNull (h.whileLoop hscope condition body rounds)
  | each targets subject body constant =>
    refine h.exprStep subject hscope fun v m₁ hn₁ hv => ?_
    exact .attemptStep (fun _ => rfl) (h.iterate hv) (h.sound.iterate hv) fun walk m₂ hn₂ hwalk =>
      .thenNull (h.eachLoop ((hscope.mono hn₁).mono hn₂) targets body constant rounds hwalk)
  | breakLoop => exact .exit rfl rfl
  | continueLoop => exact .exit rfl rfl
  | define f =>
    exact .bind (closure_faultless scope none f)
      (Evaluator.Sound.closure_does hscope (by rintro c ⟨⟩) (.of_lax _))
      fun r m₁ _ _ => .thenNull (.change _)
  | classDef x parent body => exact h.defineClass hscope x parent body
  | member x value constant classLevel => exact .halt rfl
  | method f classLevel => exact .halt rfl
  | exports names => exact .thenNull (exportNames names)

end Direct.Follows

/-- **The evaluator in direct style tells what the evaluator by exits comes to**, at any depth. -/
theorem Direct.follows_ofDepth (host : Host) (rounds depth : Nat) :
    (Direct.ofDepth host rounds depth).Follows
      (.ofDepth (Evaluator.load host) rounds depth) := by
  have sound := Evaluator.sound_of_host host rounds
  have confined (depth : Nat) := Congruence.relates_ofDepth .confinement host rounds depth
  induction depth with
  | zero =>
    exact ⟨sound 0, confined 0, fun _ _ => .halt rfl, fun _ _ => .halt rfl, fun _ => .halt rfl⟩
  | succ depth ih =>
    exact ⟨sound _, confined _, fun e hscope => ih.evalExpr host hscope e,
      fun s hscope => ih.evalAction rounds hscope s.action, fun hv => ih.iterate hv⟩

end Wei
