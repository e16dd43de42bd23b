import Wei.Proofs.Operation

/-!
Evaluation leaves sound states sound. A construct over an evaluator that does only what a session
may do does only that itself; so does the evaluator of any depth. Code is taken from trees that are
admitted and from functions in the store, and nothing that comes out is dangling.
-/

namespace Wei

variable [A : Alphabet]

/-- The evaluator, asked about an admitted tree and nothing dangling, does only what a session may
do and answers nothing dangling. -/
structure Evaluator.Sound (R : Regime) (parts : Evaluator) : Prop where
  expr {m : Machine} {scope : Ref .scope} {e : Expr} : scope.Live m.census →
    R.Admits e.conforms → (parts.expr scope e).Does R m fun s v => v.Live s.census
  stmt {m : Machine} {scope : Ref .scope} {a : Stmt} : scope.Live m.census →
    R.Admits a.conforms → (parts.stmt scope a).Does R m fun s v => v.Live s.census
  walk {m : Machine} {v : Value} : v.Live m.census →
    (parts.walk v).Does R m fun s walk => walk.Live s.census

/-- The loader does only what a session may do and answers nothing dangling. -/
def Loader.Sound (R : Regime) (load : Loader) : Prop :=
  ∀ parts : Evaluator, parts.Sound R → ∀ (name : String) (m : Machine),
    (load parts name).Does R m fun s v => v.Live s.census

/-- What is done for its effect answers null. -/
lemma Eval.Does.thenNull {R : Regime} {m : Machine} {α : Type} {x : Eval α}
    {P : Store → α → Prop} (hx : x.Does R m P) :
    (x >>= fun _ => Pure.pure .null : Eval Value).Does R m fun s v => v.Live s.census :=
  .bind hx fun _ _ _ _ _ => .pure Value.live_null

namespace Evaluator.Sound

variable {R : Regime} {parts : Evaluator} {m : Machine} {scope : Ref .scope}
variable (hp : parts.Sound R)
include hp

/-! ### Sequences of parts -/

lemma exprs (hscope : scope.Live m.census) {es : List Expr} (he : R.Admits (Expr.allConform es)) :
    (parts.exprs scope es).Does R m fun s vs => ∀ v ∈ vs, v.Live s.census := by
  induction es generalizing m with
  | nil => exact .pure nofun
  | cons e rest ih =>
    refine .bind (hp.expr hscope he.left) fun v m₁ _ hn₁ hv => ?_
    refine .bind (ih (hscope.mono hn₁) he.right) fun vs m₂ _ hn₂ hvs => .pure fun w hw => ?_
    rcases List.mem_cons.mp hw with rfl | hw
    · exact hv.mono hn₂
    · exact hvs w hw

lemma expr? (hscope : scope.Live m.census) {e : Option Expr}
    (he : R.Admits (Expr.optionConforms e)) :
    (parts.expr? scope e).Does R m fun s => Value.LiveIfAny s.census := by
  cases e with
  | none => exact .pure .none
  | some e => exact .bind (hp.expr hscope he) fun v m₁ _ _ hv => .pure (.some hv)

lemma execute (hscope : scope.Live m.census) {a : Stmt} (ha : R.Admits a.conforms) :
    (parts.execute scope a).Does R m fun s v => v.Live s.census :=
  .bind (.atLine a.line) fun _ _ _ hn _ => .recording (hp.stmt (hscope.mono hn) ha)

lemma sequence (hscope : scope.Live m.census) {last : Value} (hlast : last.Live m.census)
    {body : List Stmt} (hbody : R.Admits (Stmt.allConform body)) :
    (parts.sequence scope last body).Does R m fun s v => v.Live s.census := by
  induction body generalizing m last with
  | nil => exact .pure hlast
  | cons a rest ih =>
    exact .bind (hp.execute hscope hbody.left) fun v m₁ _ hn hv =>
      ih (hscope.mono hn) hv hbody.right

lemma block (hscope : scope.Live m.census) {body : List Stmt}
    (hbody : R.Admits (Stmt.allConform body)) :
    (parts.block scope body).Does R m fun s v => v.Live s.census :=
  .bind (.onStore (StoreM.childScope_does hscope)) fun _ _ _ _ hown =>
    hp.sequence hown.1 Value.live_null hbody

lemma program (hscope : scope.Live m.census) {p : Program}
    (hbody : R.Admits (Stmt.allConform p.body)) :
    (parts.program scope p).Does R m fun s v => v.Live s.census :=
  .takingReturn (.outsideLoops (hp.sequence hscope Value.live_null hbody))

/-! ### Calls -/

lemma callFunction {f : Ref .function} (hf : f.Live m.census) {args : List Value}
    (hargs : ∀ v ∈ args, v.Live m.census) {bindings : List (String × Value)}
    (hb : ∀ b ∈ bindings, b.2.Live m.census) :
    (parts.callFunction f args bindings).Does R m fun s v => v.Live s.census := by
  refine .of_sound fun hm => .store_bind (.ite (fun _ => .fault _) fun _ => ?_)
  have hscope := hm.store.closure_live hf
  have hbody := hm.store.body_admitted hf
  refine .bind (.onStore (StoreM.childScope_does hscope)) fun own m₁ _ hn₁ hown => ?_
  have hbound : ∀ b ∈ bindings ++ (m.world.store.function f).params.zip args,
      b.2.Live m₁.census := by
    intro b hmem
    rcases List.mem_append.mp hmem with hmem | hmem
    · exact (hb b hmem).mono hn₁
    · exact (hargs b.2 (List.of_mem_zip hmem).2).mono hn₁
  refine .bind (.onStore (StoreM.bindParameters_does hown.1 hown.2 hbound)) fun _ m₂ _ hn₂ _ => ?_
  refine .takingReturn (.withFrame (.outsideLoops ?_))
  refine .thenNull (hp.block ?_ hbody)
  exact hown.1.mono hn₂

omit hp in
lemma receiverBindings_does {s : Store} {receiver : Receiver}
    (hr : receiver.value.Live s.census) {f : Ref .function} (hf : f.Live s.census)
    (hcalls : s.Calls receiver f) :
    (receiverBindings receiver f).Does R.strict s fun s' bs => ∀ b ∈ bs, b.2.Live s'.census := by
  refine .of_sound fun hs => .get_bind ?_
  have hown : (ownBinding receiver).2.Live s.census := by
    cases receiver <;> exact hr
  cases ho : (s.function f).owner with
  | none =>
    refine .pure fun b hb => ?_
    obtain rfl := List.mem_singleton.mp hb
    exact hown
  | some owner =>
    refine .bind (StoreM.newBound_linked_does rfl rfl hr (hs.owner_live hf ho) (.super hcalls ho))
      fun r s' _ hn hsuper => .pure fun b hb => ?_
    rcases List.mem_cons.mp hb with rfl | hb
    · exact hown.mono hn
    · obtain rfl := List.mem_singleton.mp hb
      exact hsuper

lemma callMethod {receiver : Receiver} (hr : receiver.value.Live m.census) {f : Ref .function}
    (hf : f.Live m.census) (hcalls : m.world.store.Calls receiver f) {args : List Value}
    (hargs : ∀ v ∈ args, v.Live m.census) :
    (parts.callMethod receiver f args).Does R m fun s v => v.Live s.census :=
  .bind (.onStore (receiverBindings_does hr hf hcalls)) fun _ _ _ hn hb =>
    hp.callFunction (hf.mono hn) (fun v hv => (hargs v hv).mono hn) hb

lemma construct {c : Ref .cls} (hc : c.Live m.census) {args : List Value}
    (hargs : ∀ v ∈ args, v.Live m.census) :
    (parts.construct c args).Does R m fun s v => v.Live s.census := by
  refine .bind (.onStore (StoreM.newInstance_does hc)) fun this m₁ hm₁ hn₁ hnew => ?_
  obtain ⟨hthis, hcls⟩ := hnew
  refine .store_bind ?_
  dsimp only
  refine .ite (fun _ => .fault _) fun _ => ?_
  have finish (m₂ : Machine) (hn₂ : m₁.census ≤ m₂.census) :
      (do
        Eval.onStore (StoreM.finishInstance this)
        pure (.inst this) : Eval Value).Does R m₂ fun s v => v.Live s.census :=
    .bind (.onStore (StoreM.finishInstance_does (hthis.mono hn₂))) fun _ _ _ hn _ =>
      .pure ((hthis.mono hn₂).mono hn)
  cases hinit : m₁.world.store.findMethod? c "__init__" with
  | none => exact finish m₁ le_rfl
  | some f =>
    have hr : (Receiver.inst this).value.Live m₁.census := hthis
    have hf := hm₁.store.findMethod?_live (hc.mono hn₁) hinit
    have hcalls : m₁.world.store.Calls (.inst this) f := .method (hcls.symm ▸ hinit)
    exact .bind (hp.callMethod hr hf hcalls fun v hv => (hargs v hv).mono hn₁) fun _ m₂ _ hn₂ _ =>
      finish m₂ hn₂

lemma callBound {r : Ref .bound} (hr : r.Live m.census) {args : List Value}
    (hargs : ∀ v ∈ args, v.Live m.census) :
    (parts.callBound r args).Does R m fun s v => v.Live s.census := by
  refine .of_sound fun hm => .store_bind ?_
  cases hb : m.world.store.bound r with
  | text method this =>
    have hcell := hm.store.bound_sound hr hb
    exact .onStore (TextMethod.call_does method (hcell.values _ List.mem_cons_self) hargs)
  | list method this =>
    have hcell := hm.store.bound_sound hr hb
    exact .onStore (ListMethod.call_does method (hcell.values _ List.mem_cons_self) hargs)
  | method this f =>
    have hcell := hm.store.bound_sound hr hb
    exact hp.callMethod (hcell.values _ List.mem_cons_self)
      (hcell.links ⟨.function, f⟩ List.mem_cons_self) (.boundMethod hr hb) hargs
  | classMethod c f =>
    have hcell := hm.store.bound_sound hr hb
    exact hp.callMethod (hcell.values _ List.mem_cons_self)
      (hcell.links ⟨.function, f⟩ List.mem_cons_self) (.boundClassMethod hr hb) hargs
  | super owner receiver => exact .fault _

lemma apply {callee : Value} (hc : callee.Live m.census) {args : List Value}
    (hargs : ∀ v ∈ args, v.Live m.census) :
    (parts.apply callee args).Does R m fun s v => v.Live s.census := by
  cases callee with
  | function f => exact hp.callFunction hc hargs nofun
  | bound r => exact hp.callBound hc hargs
  | cls c => exact hp.construct hc hargs
  | builtin b => exact Builtin.call_does b hargs
  | _ => exact .store_bind (.fault _)

lemma iterate {v : Value} (hv : v.Live m.census) :
    (parts.iterate v).Does R m fun s walk => walk.Live s.census := by
  refine .of_sound fun hm => .store_bind ?_
  cases hwalk : m.world.store.iteration? v with
  | some walk => exact .pure (hm.store.iteration?_live hv hwalk)
  | none =>
    cases v with
    | inst r =>
      dsimp only
      cases hf : m.world.store.findMethod? (m.world.store.inst r).cls "__iter__" with
      | none => exact .fault _
      | some f =>
        have hflive := hm.store.findMethod?_live (hm.store.class_live hv) hf
        exact .bind (hp.callMethod hv hflive (.method hf) nofun) fun w m₁ _ _ hw => hp.walk hw
    | _ => exact .fault _

/-! ### Expressions -/

omit hp in
lemma name_does (hscope : scope.Live m.census) (x : String) :
    (name scope x).Does R m fun s v => v.Live s.census := by
  refine .of_sound fun hm => .store_bind ?_
  cases hv : m.world.store.lookup? scope x with
  | some v => exact .pure (hm.store.lookup?_live hscope hv)
  | none =>
    dsimp only
    split
    · next v hv =>
      refine .pure ?_
      unfold rootName? at hv
      split at hv
      · obtain ⟨⟩ := hv
        exact hm.store.object
      · obtain ⟨b, -, rfl⟩ := Option.map_eq_some_iff.mp hv
        trivial
    · exact .fault _

omit hp in
lemma closure_does (hscope : scope.Live m.census) {owner : Option (Ref .cls)}
    (howner : ∀ c ∈ owner, c.Live m.census) {f : FunctionLiteral} (hf : R.Admits f.conforms) :
    (closure scope owner f).Does R m fun s r =>
      r.Live s.census ∧ (s.function r).owner = owner ∧ (s.function r).name = f.name := by
  have hbody : R.Admits (Stmt.allConform f.body) := by
    cases f
    exact hf
  refine .get_bind ?_
  refine .onStore (Conduct.Allows.imp (StoreM.newFunction_does hscope howner hbody) ?_)
  rintro r s - - ⟨hr, hcode⟩
  exact ⟨hr, by rw [hcode], by rw [hcode]⟩

lemma entries (hscope : scope.Live m.census) {acc : Dict} (hacc : ∀ e ∈ acc.entries,
    e.2.1.hashKey? = some e.1 ∧ e.2.1.Live m.census ∧ e.2.2.Live m.census)
    {pairs : List (Expr × Expr)} (hpairs : R.Admits (Expr.pairsConform pairs)) :
    (parts.entries scope acc pairs).Does R m fun s d => ∀ e ∈ d.entries,
      e.2.1.hashKey? = some e.1 ∧ e.2.1.Live s.census ∧ e.2.2.Live s.census := by
  induction pairs generalizing m acc with
  | nil => exact .pure hacc
  | cons pair rest ih =>
    obtain ⟨k, v⟩ := pair
    refine .bind (hp.expr hscope hpairs.left.left) fun key m₁ _ hn₁ hkey => ?_
    refine .orCrash_bind (fun c => R.crash_of_encode hkey) fun _ _ => ?_
    split
    · exact .store_bind (.fault _)
    · next hash hhash =>
      refine .bind (hp.expr (hscope.mono hn₁) hpairs.left.right) fun value m₂ _ hn₂ hvalue => ?_
      refine ih ((hscope.mono hn₁).mono hn₂) (fun e he => ?_) hpairs.right
      rcases OrderedMap.mem_entries_insert he with rfl | he
      · exact ⟨hhash, hkey.mono hn₂, hvalue⟩
      · obtain ⟨hh, hk, hv⟩ := hacc e he
        exact ⟨hh, hk.mono (hn₁.trans hn₂), hv.mono (hn₁.trans hn₂)⟩

lemma shortCircuit (hscope : scope.Live m.census) (op : ShortCircuit) {lhs rhs : Expr}
    (hl : R.Admits lhs.conforms) (hr : R.Admits rhs.conforms) :
    (parts.shortCircuit scope op lhs rhs).Does R m fun s v => v.Live s.census := by
  refine .bind (hp.expr hscope hl) fun left m₁ _ hn₁ _ => .store_bind ?_
  refine .ite (fun _ => .pure trivial) fun _ => ?_
  exact .bind (hp.expr (hscope.mono hn₁) hr) fun right m₂ _ _ _ => .store_bind (.pure trivial)

omit hp in
lemma literal_does {l : Literal} (hl : R.Admits l.conforms) :
    (Eval.orCrash l.value).Does R m fun s v => v.Live s.census := by
  cases l with
  | float x => exact .throw (Regime.crash_of_admits hl _)
  | str t => exact .pure (Regime.over_of_admits hl)
  | _ => exact .pure trivial

lemma evalExpr {load : Loader} (hload : load.Sound R) (hscope : scope.Live m.census) {e : Expr}
    (he : R.Admits e.conforms) :
    (parts.evalExpr load scope e).Does R m fun s v => v.Live s.census := by
  cases e with
  | literal l => exact literal_does he
  | name x => exact name_does hscope x
  | list es =>
    refine .bind (hp.exprs hscope he) fun vs m₁ _ _ hvs => ?_
    exact .bind (.onStore (StoreM.newList_does hvs)) fun r _ _ _ hr => .pure hr
  | dict pairs =>
    refine .bind (hp.entries hscope (by rintro e ⟨⟩) he) fun d m₁ _ _ hd => ?_
    exact .bind (.onStore (StoreM.newDict_does hd)) fun r _ _ _ hr => .pure hr
  | function f =>
    exact .bind (closure_does hscope (by rintro c ⟨⟩) he) fun r _ _ _ hr => .pure hr.1
  | unary op e =>
    exact .bind (hp.expr hscope he) fun v m₁ _ _ _ => .askStore fun w hw => UnaryOp.apply_live hw
  | binary op lhs rhs =>
    refine .bind (hp.expr hscope he.left) fun left m₁ _ hn₁ hl => ?_
    refine .bind (hp.expr (hscope.mono hn₁) he.right) fun right m₂ _ hn₂ hr => ?_
    exact .askStore fun w hw => BinaryOp.apply_live (hl.mono hn₂) hr hw
  | shortCircuit op lhs rhs => exact hp.shortCircuit hscope op he.left he.right
  | call callee args =>
    refine .bind (hp.expr hscope he.left) fun f m₁ _ hn₁ hf => ?_
    refine .bind (hp.exprs (hscope.mono hn₁) he.right) fun vs m₂ _ hn₂ hvs => ?_
    exact hp.apply (hf.mono hn₂) hvs
  | item subject index =>
    refine .bind (hp.expr hscope he.left) fun v m₁ _ hn₁ hv => ?_
    refine .bind (hp.expr (hscope.mono hn₁) he.right) fun i m₂ hm₂ hn₂ hi => ?_
    refine .orCrash_bind (fun c => R.crash_of_encodeIndex hi) fun _ _ => ?_
    exact .askStore fun w hw => hm₂.store.item_live (hv.mono hn₂) hw
  | attr subject x =>
    exact .bind (hp.expr hscope he) fun v m₁ _ _ hv => .onStore (StoreM.getAttribute_does hv x)
  | load path =>
    refine .bind (hp.expr hscope he) fun v m₁ _ _ hv => ?_
    cases v with
    | str t =>
      exact .orCrash_bind (fun c => R.crash_of_encodeText hv) fun name _ => hload parts hp name m₁
    | _ => exact .store_bind (.fault _)

/-! ### Class bodies -/

lemma parentClass (hscope : scope.Live m.census) (x : String) {e : Option Expr}
    (he : R.Admits (Expr.optionConforms e)) :
    (parts.parentClass scope x e).Does R m fun s c => c.Live s.census := by
  cases e with
  | none => exact .of_sound fun hm => .pure hm.store.object
  | some e =>
    refine .bind (hp.expr hscope he) fun v m₁ _ _ hv => ?_
    cases v with
    | cls c => exact .pure hv
    | _ => exact .store_bind (.fault _)

lemma declareMember (hscope : scope.Live m.census) {c : Ref .cls} (hc : c.Live m.census)
    {a : Action} (ha : R.Admits a.declares) :
    (parts.declareMember scope c a).Does R m fun s v => v.Live s.census := by
  cases a with
  | member x value constant classLevel =>
    refine .bind (hp.expr? hscope ha) fun v m₁ _ hn hv => ?_
    cases classLevel with
    | true =>
      exact .thenNull (.onStore (StoreM.addClassMember_does (hc.mono hn) x hv.getD constant))
    | false =>
      exact .thenNull (.onStore (StoreM.addMember_does (hc.mono hn) x hv constant))
  | method f classLevel =>
    have howner : ∀ d ∈ some c, d.Live m.census := by
      rintro d ⟨⟩
      exact hc
    refine .bind (closure_does hscope howner ha.right) fun r m₁ _ hn hr => ?_
    obtain ⟨hr, howner, hname⟩ := hr
    have hname : (m₁.world.store.function r).name.getD "" = f.name.getD "" := by rw [hname]
    cases classLevel with
    | true =>
      exact .thenNull (.onStore (StoreM.addClassMethod_does (hc.mono hn) hr howner hname))
    | false =>
      exact .thenNull (.onStore (StoreM.addMethod_does (hc.mono hn) hr howner hname))
  | _ => exact .throw (Regime.crash_of_admits ha _)

lemma classBody (hscope : scope.Live m.census) {c : Ref .cls} (hc : c.Live m.census)
    {body : List Stmt} (hbody : R.Admits (Stmt.allDeclare body)) :
    (parts.classBody scope c body).Does R m fun s v => v.Live s.census := by
  induction body generalizing m with
  | nil => exact .pure Value.live_null
  | cons a rest ih =>
    have ha : R.Admits a.action.declares := by
      cases a
      exact hbody.left
    refine .bind (.atLine a.line) fun _ m₁ _ hn₁ _ => ?_
    refine .bind (.recording (hp.declareMember (hscope.mono hn₁) (hc.mono hn₁) ha))
      fun _ m₂ _ hn₂ _ => ?_
    exact ih (hscope.mono (hn₁.trans hn₂)) (hc.mono (hn₁.trans hn₂)) hbody.right

lemma defineClass (hscope : scope.Live m.census) (x : String) {parent : Option Expr}
    (hparent : R.Admits (Expr.optionConforms parent)) {body : List Stmt}
    (hbody : R.Admits (Stmt.allDeclare body)) :
    (parts.defineClass scope x parent body).Does R m fun s v => v.Live s.census := by
  refine .bind (hp.parentClass hscope x hparent) fun above m₁ _ hn₁ habove => ?_
  refine .bind (.onStore (StoreM.newClass_does x habove)) fun c m₂ _ hn₂ hc => ?_
  have hscope₂ := hscope.mono (hn₁.trans hn₂)
  have hvalue : (Value.cls c).Live m₂.census := hc
  refine .bind (.onStore (StoreM.declare_does hscope₂ x hvalue true)) fun _ m₃ _ hn₃ _ => ?_
  exact hp.classBody (hscope₂.mono hn₃) (hc.mono hn₃) hbody

/-! ### Statements -/

lemma assign (hscope : scope.Live m.census) {v : Value} (hv : v.Live m.census) {t : Target}
    (ht : R.Admits t.conforms) : (parts.assign scope v t).Does R m fun _ _ => True := by
  cases t with
  | name x => exact .onStore (StoreM.assign_does hscope x hv)
  | item subject index =>
    refine .bind (hp.expr hscope ht.left) fun w m₁ _ hn₁ hw => ?_
    refine .bind (hp.expr (hscope.mono hn₁) ht.right) fun i m₂ _ hn₂ hi => ?_
    refine .orCrash_bind (fun c => R.crash_of_encodeIndex hi) fun _ _ => ?_
    exact .onStore (StoreM.setItem_does (hw.mono hn₂) hi (hv.mono (hn₁.trans hn₂)))
  | attr subject x =>
    refine .bind (hp.expr hscope ht) fun w m₁ _ hn hw => ?_
    exact .onStore (StoreM.setAttribute_does hw x (hv.mono hn))
  | loop subject address => exact .bind (hp.expr hscope ht.any) fun _ _ _ _ _ => .fault _
  | invalid => exact .throw (Regime.crash_of_admits ht _)

lemma branches (hscope : scope.Live m.census) {otherwise : Option (List Stmt)}
    (ho : R.Admits (Stmt.optionConforms otherwise)) {bs : List (Expr × List Stmt)}
    (hbs : R.Admits (Stmt.branchesConform bs)) :
    (parts.branches scope otherwise bs).Does R m fun s v => v.Live s.census := by
  induction bs generalizing m with
  | nil =>
    cases otherwise with
    | none => exact .pure Value.live_null
    | some body => exact hp.block hscope ho
  | cons b rest ih =>
    obtain ⟨condition, body⟩ := b
    refine .bind (hp.expr hscope hbs.left.left) fun test m₁ _ hn _ => .store_bind ?_
    exact .ite (fun _ => hp.block (hscope.mono hn) hbs.left.right) fun _ =>
      ih (hscope.mono hn) hbs.right

lemma whileRound (hscope : scope.Live m.census) {condition : Expr} {body : List Stmt}
    (hc : R.Admits condition.conforms) (hbody : R.Admits (Stmt.allConform body)) :
    (parts.whileRound scope condition body).Does R m fun _ _ => True := by
  refine .bind (hp.expr hscope hc) fun test m₁ _ hn _ => .store_bind ?_
  exact .ite (fun _ => .loopRound (hp.block (hscope.mono hn) hbody)) fun _ => .pure trivial

omit hp in
/-- What the targets of a loop are bound to. -/
lemma live_of_mem_zip (targets : List String) {step : Value × Value}
    (hstep : step.1.Live m.census ∧ step.2.Live m.census) :
    ∀ b ∈ targets.zip [step.1, step.2], b.2.Live m.census := by
  intro b hb
  rcases List.mem_cons.mp (List.of_mem_zip hb).2 with h | h
  · exact h ▸ hstep.1
  · exact List.mem_singleton.mp h ▸ hstep.2

lemma eachRound (hscope : scope.Live m.census) (targets : List String) {body : List Stmt}
    (hbody : R.Admits (Stmt.allConform body)) (constant : Bool) {step : Value × Value}
    (hstep : step.1.Live m.census ∧ step.2.Live m.census) :
    (parts.eachRound scope targets body constant step).Does R m fun _ _ => True := by
  refine .ite (fun _ => .fault _) fun _ => ?_
  refine .bind (.onStore (StoreM.childScope_does hscope)) fun own m₁ _ hn₁ hown => ?_
  have hb := live_of_mem_zip targets ⟨hstep.1.mono hn₁, hstep.2.mono hn₁⟩
  refine .bind (.onStore (StoreM.declareAll_does hown.1 constant hb)) fun _ m₂ _ hn₂ _ => ?_
  exact .loopRound (hp.block (hown.1.mono hn₂) hbody)

omit hp in
lemma exportNames_does (names : List String) :
    (exportNames names).Does R m fun _ _ => True := by
  refine .of_sound fun hm => .get_bind ?_
  cases hr : m.module with
  | none => exact .fault _
  | some r => exact .onStore (StoreM.exportNames_does (hm.module r hr) names)

lemma evalAction (rounds : Nat) (hscope : scope.Live m.census) {a : Action}
    (ha : R.Admits a.conforms) :
    (parts.evalAction rounds scope a).Does R m fun s v => v.Live s.census := by
  cases a with
  | block body => exact hp.block hscope ha
  | declare x value constant =>
    refine .bind (hp.expr? hscope ha) fun v m₁ _ hn hv => ?_
    exact .thenNull (.onStore (StoreM.declare_does (hscope.mono hn) x hv.getD constant))
  | assign target value =>
    refine .bind (hp.expr hscope ha.right) fun v m₁ _ hn hv => ?_
    exact .thenNull (hp.assign (hscope.mono hn) hv ha.left)
  | eval e => exact hp.expr hscope ha
  | ret value => exact .bind (hp.expr? hscope ha) fun v _ _ _ hv => .throw hv.getD
  | branch bs otherwise => exact hp.branches hscope ha.right ha.left
  | loop condition body =>
    refine .thenNull (.repeating rounds fun m' hn => ?_)
    exact hp.whileRound (hscope.mono hn) ha.left ha.right
  | each targets subject body constant =>
    refine .bind (hp.expr hscope ha.left) fun v m₁ _ hn₁ hv => ?_
    refine .bind (hp.iterate hv) fun walk m₂ _ hn₂ hwalk => ?_
    refine .thenNull (.walking rounds hwalk fun step m' hn hstep => ?_)
    exact hp.eachRound (hscope.mono (hn₁.trans (hn₂.trans hn))) targets ha.right constant hstep
  | breakLoop => exact .throw trivial
  | continueLoop => exact .throw trivial
  | define f =>
    refine .bind (closure_does hscope (by rintro c ⟨⟩) ha.right) fun r m₁ _ hn hr => ?_
    have hvalue : (Value.function r).Live m₁.census := hr.1
    exact .thenNull (.onStore (StoreM.declare_does (hscope.mono hn) _ hvalue false))
  | classDef x parent body => exact hp.defineClass hscope x ha.left ha.right
  | member x value constant classLevel => exact .throw (Regime.crash_of_admits ha _)
  | method f classLevel => exact .throw (Regime.crash_of_admits ha _)
  | exports names => exact .thenNull (exportNames_does names)

/-! ### Evaluators of any depth -/

/-- One level deeper. -/
lemma deepen {load : Loader} (hload : load.Sound R) (rounds : Nat) :
    (parts.deepen load rounds).Sound R where
  expr hscope he := hp.evalExpr hload hscope he
  stmt {_ _ a} hscope ha := by
    cases a
    exact hp.evalAction rounds hscope ha
  walk hv := hp.iterate hv

end Evaluator.Sound

lemma Evaluator.exhausted_sound (R : Regime) : exhausted.Sound R where
  expr _ _ := .throw trivial
  stmt _ _ := .throw trivial
  walk _ := .throw trivial

/-- **The evaluator of any depth keeps sound states sound.** -/
theorem Evaluator.ofDepth_sound {R : Regime} {load : Loader} (hload : load.Sound R)
    (rounds depth : Nat) : (ofDepth load rounds depth).Sound R := by
  induction depth with
  | zero => exact exhausted_sound R
  | succ depth ih => exact ih.deepen hload rounds

/-! ### Loading modules -/

/-- The programs that the host reads are admitted. -/
def Host.Admitted (strict : Bool) (host : Host) : Prop :=
  ∀ text path p, host.parse text path = .program p → Admits strict (Stmt.allConform p.body)

/-- In this failure the host may end when it loads a module. -/
inductive Host.Fails (host : Host) : Crash → Prop
  | path {name : String} {c : Crash} :
    Path.ofModuleName host.files.cwd name = .error c → Fails host c
  | read {path : String} {c : Crash} : host.files.readText path = .error c → Fails host c
  | parse {text path : String} {c : Crash} : host.parse text path = .crash c → Fails host c

section Loading

variable {R : Regime} {m m' : Machine} {host : Host}

lemma Eval.newCachedModule_does {path : String} (hnew : m.world.cache.contains path = false) :
    (newCachedModule path).Does R m fun s r => r.Live s.census := by
  refine .onStore_bind (StoreM.newModuleAt_does path) fun r s hs hn hr => ?_
  have hadd : m.world.cache.add path r = .ok (m.world.cache.insert path r) :=
    if_neg (by simp [hnew])
  refine .step (a := r) ?_ (.cacheModule hr.1 hr.2 hnew) hr.1
  show EStateM.bind (Eval.orCrash (m.world.cache.add path r)) _ _ = _
  rw [hadd]
  rfl

omit A in
/-- Reading a program leaves the world as it is. -/
lemma Eval.readProgram_world {path : String} {p : Program}
    (h : readProgram host path m = .ok p m') : m'.world = m.world := by
  unfold readProgram at h
  cases hread : host.files.readText path with
  | error c =>
    rw [hread] at h
    cases h
  | ok read =>
    rw [hread, orCrash_ok_bind] at h
    cases read with
    | error refusal => cases h
    | ok text =>
      dsimp only at h
      rw [parse_bind] at h
      cases hparse : host.parse text path with
      | program q =>
        rw [hparse] at h
        obtain ⟨⟩ := h
        rfl
      | _ =>
        rw [hparse] at h
        cases h

lemma Eval.readProgram_does (hhost : host.Admitted R.strict)
    (hcrash : ∀ c, host.Fails c → R.crash c) (path : String) :
    (readProgram host path).Does R m fun _ p => R.Admits (Stmt.allConform p.body) := by
  refine .bind
    (.orCrash (Q := fun _ _ => True) (fun _ _ => trivial) fun c hc => hcrash c (.read hc))
    fun read m₁ hm₁ _ _ => ?_
  cases read with
  | error refusal => exact .fault _
  | ok text =>
    refine .aside_bind rfl rfl rfl ?_
    cases hparse : host.parse text path with
    | crash c => exact .throw (hcrash c (.parse hparse))
    | syntaxError message => exact .fault _
    | program p => exact .pure (hhost text path p hparse)

/-- **Loading a module keeps sound states sound.** -/
theorem Evaluator.load_sound (hhost : host.Admitted R.strict)
    (hcrash : ∀ c, host.Fails c → R.crash c) : Loader.Sound R (load host) := by
  intro parts hp name m
  refine .bind
    (.orCrash (Q := fun _ _ => True) (fun _ _ => trivial) fun c hc => hcrash c (.path hc))
    fun path m₁ hm₁ _ _ => ?_
  refine .ite (fun _ => .fault _) fun _ => .get_bind ?_
  cases hcache : m₁.world.cache.find? path.text with
  | some r => exact .pure (hm₁.cache r (OrderedMap.mem_values_of_find? hcache))
  | none =>
    refine .aside_bind rfl rfl rfl ?_
    refine .bind_of_eq (Eval.readProgram_does hhost hcrash path.text)
      fun p m₂ hread _ _ hbody => ?_
    have hnew : m₂.world.cache.contains path.text = false := by
      rw [Eval.readProgram_world hread]
      simp [OrderedMap.contains, hcache]
    refine .bind (Eval.newCachedModule_does hnew) fun r m₃ hm₃ _ hr => .store_bind ?_
    refine .bind (.withModule hr (.withFrame (hp.program ?_ hbody))) fun _ m₄ _ hn₄ _ =>
      .pure (hr.mono hn₄)
    exact hm₃.store.moduleScope_live hr

end Loading

end Wei
