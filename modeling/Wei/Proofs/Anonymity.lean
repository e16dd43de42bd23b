import Wei.Proofs.Mirror

/-!
Evaluation does not depend on the numbers of cells: over an evaluator of which this is true it is
true of every construct, and so it is of the evaluator of any depth, and of whatever a host asks of
a session.
-/

namespace Wei

/-- The evaluator, asked about something and about its image, comes to the same in a state and in
an image of it. -/
structure Evaluator.Mirrored (f : Renaming) (base : Store) (files : FileTree) (p : Evaluator) :
    Prop where
  sound : p.Sound (.lenient false)
  expr {m n : Machine} {scope : Ref .scope} (e : Expr) : scope.Live m.census →
    (p.expr scope e).Mirrors f base files (p.expr (f.on scope) e) m n
  stmt {m n : Machine} {scope : Ref .scope} (a : Stmt) : scope.Live m.census →
    (p.stmt scope a).Mirrors f base files (p.stmt (f.on scope) a) m n
  walk {m n : Machine} {v : Value} : v.Live m.census →
    (p.walk v).Mirrors f base files (p.walk (f.on v)) m n

/-- So does what the loader does. -/
structure Loader.Mirrored (f : Renaming) (base : Store) (files : FileTree) (load : Loader) :
    Prop where
  sound : load.Sound (.lenient false)
  load {p : Evaluator} : p.Mirrored f base files → ∀ (name : String) (m n : Machine),
    (load p name).Mirrors f base files (load p name) m n

lemma Renaming.zip_on (f : Renaming) {α : Type} [Renamable α] (xs : List String) (l : List α) :
    xs.zip (f.on l) = f.on (xs.zip l) :=
  List.zip_map_right ..

namespace Evaluator.Mirrored

variable {f : Renaming} {base : Store} {files : FileTree} {p : Evaluator} {m n : Machine}
variable {scope : Ref .scope} (h : p.Mirrored f base files)
include h

/-! ### Sequences of parts -/

lemma exprs (hscope : scope.Live m.census) (es : List Expr) :
    (p.exprs scope es).Mirrors f base files (p.exprs (f.on scope) es) m n := by
  induction es generalizing m n with
  | nil => exact .pure rfl
  | cons e rest ih =>
    refine .bind (h.expr e hscope) (h.sound.expr hscope (.of_lax _)) fun v m₁ n₁ hn _ => ?_
    exact .bind_pure (ih (hscope.mono hn)) fun _ => rfl

lemma expr? (hscope : scope.Live m.census) (e : Option Expr) :
    (p.expr? scope e).Mirrors f base files (p.expr? (f.on scope) e) m n := by
  cases e with
  | none => exact .pure rfl
  | some e => exact .bind_pure (h.expr e hscope) fun _ => rfl

lemma execute (hscope : scope.Live m.census) (a : Stmt) :
    (p.execute scope a).Mirrors f base files (p.execute (f.on scope) a) m n :=
  .bind (.atLine a.line) (.atLine a.line) fun _ _ _ hn _ => .recording (h.stmt a (hscope.mono hn))

lemma sequence (hscope : scope.Live m.census) (last : Value) (body : List Stmt) :
    (p.sequence scope last body).Mirrors f base files
      (p.sequence (f.on scope) (f.on last) body) m n := by
  induction body generalizing m n last with
  | nil => exact .pure rfl
  | cons a rest ih =>
    exact .bind (h.execute hscope a) (h.sound.execute hscope (.of_lax _)) fun v m₁ n₁ hn _ =>
      ih (hscope.mono hn) v

lemma block (hscope : scope.Live m.census) (body : List Stmt) :
    (p.block scope body).Mirrors f base files (p.block (f.on scope) body) m n :=
  .bind (.onStore fun hs => hs.childScope scope) (.onStore (StoreM.childScope_does hscope))
    fun _ _ _ _ hown => h.sequence hown.1 .null body

lemma program (hscope : scope.Live m.census) (t : Program) :
    (p.program scope t).Mirrors f base files (p.program (f.on scope) t) m n :=
  .takingReturn (.outsideLoops (h.sequence hscope .null t.body))

/-! ### Calls -/

lemma callFunction {g : Ref .function} (hg : g.Live m.census) {args : List Value}
    (hargs : ∀ v ∈ args, v.Live m.census) {bindings : List (String × Value)}
    (hb : ∀ b ∈ bindings, b.2.Live m.census) :
    (p.callFunction g args bindings).Mirrors f base files
      (p.callFunction (f.on g) (f.on args) (f.on bindings)) m n := by
  refine .of_image fun hm hi => .store_bind ?_
  have hcode := hi.store.function hg
  have hscope := hm.store.closure_live hg
  rw [hcode]
  generalize hclosure : m.world.store.function g = code at hscope
  refine .ite ?_ (fun _ => .fault ?_) fun _ => ?_
  · rw [f.length_on]
    rfl
  · rw [f.length_on]
    rfl
  refine .bind (.onStore fun hs => hs.childScope code.scope)
    (.onStore (StoreM.childScope_does hscope)) fun own m₁ n₁ hn₁ hown => ?_
  have hbound : ∀ b ∈ bindings ++ code.params.zip args, b.2.Live m₁.census := by
    intro b hmem
    rcases List.mem_append.mp hmem with hmem | hmem
    · exact (hb b hmem).mono hn₁
    · exact (hargs b.2 (List.of_mem_zip hmem).2).mono hn₁
  have hzip : f.on bindings ++ (f.on code).params.zip (f.on args) =
      f.on (bindings ++ code.params.zip args) := by
    rw [f.zip_on, f.on_append]
    rfl
  rw [hzip]
  refine .bind (.onStore fun hs => hs.bindParameters hown.1 _)
    (.onStore (StoreM.bindParameters_does hown.1 hown.2 hbound)) fun _ m₂ n₂ hn₂ _ => ?_
  refine .takingReturn (.withFrame code.path code.title (.outsideLoops ?_))
  refine .bind_pure (h.block ?_ code.body) fun _ => rfl
  exact hown.1.mono hn₂

lemma callMethod {receiver : Receiver} (hr : receiver.value.Live m.census) {g : Ref .function}
    (hg : g.Live m.census) (hcalls : m.world.store.Calls receiver g) {args : List Value}
    (hargs : ∀ v ∈ args, v.Live m.census) :
    (p.callMethod receiver g args).Mirrors f base files
      (p.callMethod (f.on receiver) (f.on g) (f.on args)) m n :=
  .bind (.onStore fun hs => hs.receiverBindings receiver g)
    (.onStore (Sound.receiverBindings_does hr hg hcalls)) fun _ _ _ hn hb =>
      h.callFunction (hg.mono hn) (fun v hv => (hargs v hv).mono hn) hb

lemma construct {c : Ref .cls} (hc : c.Live m.census) {args : List Value}
    (hargs : ∀ v ∈ args, v.Live m.census) :
    (p.construct c args).Mirrors f base files (p.construct (f.on c) (f.on args)) m n := by
  refine .bind (.onStore fun hs => hs.newInstance c) (.onStore (StoreM.newInstance_does hc))
    fun this m₁ n₁ hn₁ hnew => ?_
  obtain ⟨hthis, hcls⟩ := hnew
  refine .of_image fun hm₁ hi₁ => .store_bind ?_
  have finish {m₂ n₂ : Machine} (hn₂ : m₁.census ≤ m₂.census) :
      (do
        Eval.onStore (StoreM.finishInstance this)
        pure (.inst this) : Eval Value).Mirrors f base files
      (do
        Eval.onStore (StoreM.finishInstance (f.on this))
        pure (.inst (f.on this)) : Eval Value) m₂ n₂ :=
    .bind_pure (.onStore fun hs => hs.finishInstance (hthis.mono hn₂)) fun _ => rfl
  have hparams (g : Ref .function) :
      (n₁.world.store.function (f.on g)).params = (m₁.world.store.function g).params := by
    obtain ⟨q, hq⟩ := hi₁.store.exists_function g
    rw [hq]
    rfl
  rw [hi₁.store.findMethod?]
  cases hinit : m₁.world.store.findMethod? c "__init__" with
  | none =>
    refine .ite ?_ (fun _ => .fault ?_) fun _ => finish le_rfl
    · rw [f.length_on]
      rfl
    · rw [f.length_on]
      rfl
  | some g =>
    have hr : (Receiver.inst this).value.Live m₁.census := hthis
    have hg := hm₁.store.findMethod?_live (hc.mono hn₁) hinit
    have hcalls : m₁.world.store.Calls (.inst this) g := .method (hcls.symm ▸ hinit)
    have hargs₁ : ∀ v ∈ args, v.Live m₁.census := fun v hv => (hargs v hv).mono hn₁
    refine .ite ?_ (fun _ => .fault ?_) fun _ => ?_
    · show ((f.on args).length ≠ (n₁.world.store.function (f.on g)).params.length) ↔ _
      rw [f.length_on, hparams]
      rfl
    · show Fault.constructorArity (f.on args).length
        (n₁.world.store.function (f.on g)).params.length = _
      rw [f.length_on, hparams]
      rfl
    · exact .bind (h.callMethod hr hg hcalls hargs₁) (h.sound.callMethod hr hg hcalls hargs₁)
        fun _ m₂ n₂ hn₂ _ => finish hn₂

lemma callBound {r : Ref .bound} (hr : r.Live m.census) {args : List Value}
    (hargs : ∀ v ∈ args, v.Live m.census) :
    (p.callBound r args).Mirrors f base files (p.callBound (f.on r) (f.on args)) m n := by
  refine .of_image fun hm hi => .store_bind ?_
  rw [hi.store.bound]
  cases hb : m.world.store.bound r with
  | text method this => exact .onStore fun hs => hs.callText method this args
  | list method this =>
    have hcell := hm.store.bound_sound hr hb
    exact .onStore fun hs => hs.callList method (hcell.values _ List.mem_cons_self) args
  | method this g =>
    have hcell := hm.store.bound_sound hr hb
    exact h.callMethod (hcell.values _ List.mem_cons_self)
      (hcell.links ⟨.function, g⟩ List.mem_cons_self) (.boundMethod hr hb) hargs
  | classMethod c g =>
    have hcell := hm.store.bound_sound hr hb
    exact h.callMethod (hcell.values _ List.mem_cons_self)
      (hcell.links ⟨.function, g⟩ List.mem_cons_self) (.boundClassMethod hr hb) hargs
  | super owner receiver => exact .fault rfl

lemma apply {callee : Value} (hc : callee.Live m.census) {args : List Value}
    (hargs : ∀ v ∈ args, v.Live m.census) :
    (p.apply callee args).Mirrors f base files (p.apply (f.on callee) (f.on args)) m n := by
  refine .of_image fun hm hi => ?_
  have hlabel := congrArg Fault.notCallable (hi.store.label callee)
  cases callee with
  | function g =>
    have hnone : ∀ b ∈ ([] : List (String × Value)), b.2.Live m.census := nofun
    exact h.callFunction hc hargs hnone
  | bound r => exact h.callBound hc hargs
  | cls c => exact h.construct hc hargs
  | builtin b => exact .builtin b args
  | _ => exact .store_bind (.fault hlabel)

lemma iterate {v : Value} (hv : v.Live m.census) :
    (p.iterate v).Mirrors f base files (p.iterate (f.on v)) m n := by
  refine .of_image fun hm hi => .store_bind ?_
  have hlabel := congrArg Fault.notIterable (hi.store.label v)
  rw [hi.store.iteration?]
  cases hwalk : m.world.store.iteration? v with
  | some walk => exact .pure rfl
  | none =>
    cases v with
    | inst r =>
      have hfind : n.world.store.findMethod? (n.world.store.inst (f.on r)).cls "__iter__" =
          f.on (m.world.store.findMethod? (m.world.store.inst r).cls "__iter__") := by
        rw [hi.store.instClass, hi.store.findMethod?]
      have hnone : f.on (none : Option Iteration) = none := rfl
      have hinst : f.on (Value.inst r) = .inst (f.on r) := rfl
      rw [hinst] at hlabel ⊢
      rw [hnone]
      dsimp only
      rw [hfind]
      cases hg : m.world.store.findMethod? (m.world.store.inst r).cls "__iter__" with
      | none => exact .fault hlabel
      | some g =>
        have hlive := hm.store.findMethod?_live (hm.store.class_live hv) hg
        have hnone : ∀ v ∈ ([] : List Value), v.Live m.census := nofun
        exact .bind (h.callMethod hv hlive (.method hg) hnone)
          (h.sound.callMethod hv hlive (.method hg) hnone) fun w m₁ n₁ _ hw => h.walk hw
    | _ => exact .fault hlabel

/-! ### Expressions -/

omit h in
lemma name (x : String) :
    (Evaluator.name scope x).Mirrors f base files (Evaluator.name (f.on scope) x) m n := by
  refine .of_image fun hm hi => .store_bind ?_
  rw [hi.store.lookup?]
  cases m.world.store.lookup? scope x with
  | some v => exact .pure rfl
  | none =>
    -- the class `object` keeps its number
    have hroot : f.on (rootName? x) = rootName? x := by
      unfold rootName?
      split
      · exact congrArg (fun c => some (Value.cls c)) f.on_object
      · cases Builtin.ofName? x with
        | none => rfl
        | some b => rfl
    have hnone : f.on (none : Option Value) = none := rfl
    rw [hnone]
    dsimp only
    cases hx : rootName? x with
    | none => exact .fault rfl
    | some v =>
      rw [hx] at hroot
      exact .pure (Option.some_inj.mp hroot).symm

omit h in
lemma closure (owner : Option (Ref .cls)) (g : FunctionLiteral) :
    (Evaluator.closure scope owner g).Mirrors f base files
      (Evaluator.closure (f.on scope) (f.on owner) g) m n := by
  refine .of_image fun hm hi => .get_bind ?_
  rw [hi.modulePath]
  exact .onStore fun hs =>
    hs.new (k := .function) ⟨g.name, g.params, g.body, scope, m.modulePath, owner⟩

lemma entries (hscope : scope.Live m.census) (acc : Dict) (pairs : List (Expr × Expr)) :
    (p.entries scope acc pairs).Mirrors f base files
      (p.entries (f.on scope) (f.on acc) pairs) m n := by
  induction pairs generalizing m n acc with
  | nil => exact .pure rfl
  | cons pair rest ih =>
    refine .bind (h.expr pair.1 hscope) (h.sound.expr hscope (.of_lax _))
      fun key m₁ n₁ hn₁ _ => ?_
    refine .crashing (Store.Image.encode_on key) fun _ => ?_
    rw [Store.Image.hashKey?_on]
    cases key.hashKey? with
    | none =>
      exact .of_image fun _ hi =>
        .store_bind (.fault (congrArg Fault.unhashable (hi.store.label key)))
    | some hash =>
      refine .bind (h.expr pair.2 (hscope.mono hn₁)) (h.sound.expr (hscope.mono hn₁) (.of_lax _))
        fun value m₂ n₂ hn₂ _ => ?_
      have hinsert := OrderedMap.insert_on f acc hash (key, value)
      exact hinsert ▸ ih (hscope.mono (hn₁.trans hn₂)) (acc.insert hash (key, value))

lemma shortCircuit (hscope : scope.Live m.census) (op : ShortCircuit) (lhs rhs : Expr) :
    (p.shortCircuit scope op lhs rhs).Mirrors f base files
      (p.shortCircuit (f.on scope) op lhs rhs) m n := by
  refine .bind (h.expr lhs hscope) (h.sound.expr hscope (.of_lax _)) fun left m₁ n₁ hn₁ _ => ?_
  refine .of_image fun _ hi => .store_bind ?_
  rw [hi.store.truth]
  refine .ite Iff.rfl (fun _ => .pure rfl) fun _ => ?_
  refine .bind (h.expr rhs (hscope.mono hn₁)) (h.sound.expr (hscope.mono hn₁) (.of_lax _))
    fun right m₂ n₂ _ _ => ?_
  exact .of_image fun _ hi => .store_bind (.pure (congrArg Value.bool (hi.store.truth right)))

/-- **No expression depends on the numbers of cells**, if the loader does not. -/
theorem evalExpr {load : Loader} (hload : load.Mirrored f base files)
    (hscope : scope.Live m.census) (e : Expr) :
    (p.evalExpr load scope e).Mirrors f base files (p.evalExpr load (f.on scope) e) m n := by
  cases e with
  | literal l =>
    have hvalue : l.value = f.on l.value := by cases l <;> rfl
    exact .orCrash hvalue
  | name x => exact name x
  | list es =>
    refine .bind (h.exprs hscope es) (h.sound.exprs hscope (.of_lax _)) fun vs m₁ n₁ _ _ => ?_
    exact .bind_pure (.onStore fun hs => hs.new (k := .list) vs) fun _ => rfl
  | dict pairs =>
    refine .bind (h.entries hscope .empty pairs)
      (h.sound.entries hscope (by rintro e ⟨⟩) (.of_lax _)) fun d m₁ n₁ _ _ => ?_
    exact .bind_pure (.onStore fun hs => hs.new (k := .dict) d) fun _ => rfl
  | function g => exact .bind_pure (closure none g) fun _ => rfl
  | unary op e =>
    exact .bind (h.expr e hscope) (h.sound.expr hscope (.of_lax _)) fun v m₁ n₁ _ _ =>
      .askStore fun hs => hs.unary op v
  | binary op lhs rhs =>
    refine .bind (h.expr lhs hscope) (h.sound.expr hscope (.of_lax _)) fun left m₁ n₁ hn₁ _ => ?_
    refine .bind (h.expr rhs (hscope.mono hn₁)) (h.sound.expr (hscope.mono hn₁) (.of_lax _))
      fun right m₂ n₂ _ _ => ?_
    exact .askStore fun hs => hs.binary op left right
  | shortCircuit op lhs rhs => exact h.shortCircuit hscope op lhs rhs
  | call callee args =>
    refine .bind (h.expr callee hscope) (h.sound.expr hscope (.of_lax _))
      fun g m₁ n₁ hn₁ hg => ?_
    refine .bind (h.exprs (hscope.mono hn₁) args) (h.sound.exprs (hscope.mono hn₁) (.of_lax _))
      fun vs m₂ n₂ hn₂ hvs => ?_
    exact h.apply (hg.mono hn₂) hvs
  | item subject index =>
    refine .bind (h.expr subject hscope) (h.sound.expr hscope (.of_lax _))
      fun v m₁ n₁ hn₁ _ => ?_
    refine .bind (h.expr index (hscope.mono hn₁)) (h.sound.expr (hscope.mono hn₁) (.of_lax _))
      fun i m₂ n₂ _ _ => ?_
    exact .crashing (Store.Image.encodeIndex_on i v) fun _ => .askStore fun hs => hs.item v i
  | attr subject x =>
    exact .bind (h.expr subject hscope) (h.sound.expr hscope (.of_lax _)) fun v m₁ n₁ _ hv =>
      .onStore fun hs => hs.getAttribute hv x
  | load path =>
    refine .bind (h.expr path hscope) (h.sound.expr hscope (.of_lax _)) fun v m₁ n₁ _ _ => ?_
    refine .of_image fun _ hi => ?_
    have hlabel := congrArg Fault.wrongArgument (hi.store.label v)
    cases v with
    | str t => exact .crashing rfl fun x => hload.load h x m₁ n₁
    | _ => exact .store_bind (.fault hlabel)

/-! ### Definitions of classes -/

lemma parentClass (hscope : scope.Live m.census) (x : String) (parent : Option Expr) :
    (p.parentClass scope x parent).Mirrors f base files
      (p.parentClass (f.on scope) x parent) m n := by
  cases parent with
  | none => exact .pure f.on_object.symm
  | some e =>
    refine .bind (h.expr e hscope) (h.sound.expr hscope (.of_lax _)) fun v m₁ n₁ _ _ => ?_
    refine .of_image fun _ hi => ?_
    have hlabel := congrArg (Fault.cannotInherit x) (hi.store.label v)
    cases v with
    | cls r => exact .pure rfl
    | _ => exact .store_bind (.fault hlabel)

lemma declareMember (hscope : scope.Live m.census) {c : Ref .cls} (hc : c.Live m.census)
    (hne : c ≠ Store.object) (a : Action) :
    (p.declareMember scope c a).Mirrors f base files
      (p.declareMember (f.on scope) (f.on c) a) m n := by
  cases a with
  | member x value constant classLevel =>
    refine .bind (h.expr? hscope value) (h.sound.expr? hscope (.of_lax _)) fun v m₁ n₁ hn _ => ?_
    have hc₁ := hc.mono hn
    have hgetD : (f.on v).getD .null = f.on (v.getD .null) := by cases v <;> rfl
    rw [hgetD]
    cases classLevel with
    | true =>
      exact .bind_pure (.onStore fun hs => hs.addClassMember hc₁ hne x _ constant) fun _ => rfl
    | false => exact .bind_pure (.onStore fun hs => hs.addMember hc₁ hne x v constant) fun _ => rfl
  | method g classLevel =>
    have howner : ∀ d ∈ some c, d.Live m.census := by
      rintro d ⟨⟩
      exact hc
    refine .bind (closure (some c) g) (Sound.closure_does hscope howner (.of_lax _))
      fun r m₁ n₁ hn _ => ?_
    have hc₁ := hc.mono hn
    cases classLevel with
    | true =>
      exact .bind_pure (.onStore fun hs => hs.addClassMethod hc₁ hne _ r) fun _ => rfl
    | false => exact .bind_pure (.onStore fun hs => hs.addMethod hc₁ hne _ r) fun _ => rfl
  | _ => exact .throw rfl

lemma classBody (hscope : scope.Live m.census) {c : Ref .cls} (hc : c.Live m.census)
    (hne : c ≠ Store.object) (body : List Stmt) :
    (p.classBody scope c body).Mirrors f base files
      (p.classBody (f.on scope) (f.on c) body) m n := by
  induction body generalizing m n with
  | nil => exact .pure rfl
  | cons a rest ih =>
    refine .bind (.atLine a.line) (.atLine a.line) fun _ m₁ n₁ hn₁ _ => ?_
    have hscope₁ := hscope.mono hn₁
    have hc₁ := hc.mono hn₁
    refine .bind (.recording (h.declareMember hscope₁ hc₁ hne a.action))
      (.recording (h.sound.declareMember hscope₁ hc₁ (.of_lax _))) fun _ m₂ n₂ hn₂ _ => ?_
    exact ih (hscope₁.mono hn₂) (hc₁.mono hn₂)

lemma defineClass (hscope : scope.Live m.census) (x : String) (parent : Option Expr)
    (body : List Stmt) :
    (p.defineClass scope x parent body).Mirrors f base files
      (p.defineClass (f.on scope) x parent body) m n := by
  refine .bind (h.parentClass hscope x parent) (h.sound.parentClass hscope x (.of_lax _))
    fun above m₁ n₁ hn₁ habove => ?_
  refine .of_image fun hm₁ _ => ?_
  refine .bind_of_eq (.onStore fun hs => hs.new (k := .cls) (Class.blank x (some above)))
    (.onStore (StoreM.newClass_does x habove)) fun c m₂ n₂ hmade hn₂ hc => ?_
  -- the class `object` was there before
  have hne : c ≠ Store.object := by
    obtain ⟨⟩ := hmade
    exact fun e => hm₁.store.object.ne' (congrArg Ref.index e)
  have hscope₂ := hscope.mono (hn₁.trans hn₂)
  have hvalue : (Value.cls c).Live m₂.census := hc
  refine .bind (.onStore fun hs => hs.declare hscope₂ x (.cls c) true)
    (.onStore (StoreM.declare_does hscope₂ x hvalue true)) fun _ m₃ n₃ hn₃ _ => ?_
  exact h.classBody (hscope₂.mono hn₃) (hc.mono hn₃) hne body

/-! ### Statements -/

lemma assign (hscope : scope.Live m.census) (v : Value) (target : Target) :
    (p.assign scope v target).Mirrors f base files
      (p.assign (f.on scope) (f.on v) target) m n := by
  cases target with
  | name x => exact .of_image fun hm _ => .onStore fun hs => hs.assign hm.store hscope x v
  | item subject index =>
    refine .bind (h.expr subject hscope) (h.sound.expr hscope (.of_lax _))
      fun w m₁ n₁ hn₁ hw => ?_
    refine .bind (h.expr index (hscope.mono hn₁)) (h.sound.expr (hscope.mono hn₁) (.of_lax _))
      fun i m₂ n₂ hn₂ _ => ?_
    refine .crashing (Store.Image.encodeIndex_on i w) fun _ => ?_
    exact .onStore fun hs => hs.setItem (hw.mono hn₂) i v
  | attr subject x =>
    refine .bind (h.expr subject hscope) (h.sound.expr hscope (.of_lax _))
      fun w m₁ n₁ _ hw => ?_
    exact .of_image fun hm _ => .onStore fun hs => hs.setAttribute hm.store hw x v
  | loop subject =>
    exact .bind (h.expr subject hscope) (h.sound.expr hscope (.of_lax _)) fun _ _ _ _ _ =>
      .fault rfl
  | invalid => exact .throw rfl

lemma branches (hscope : scope.Live m.census) (otherwise : Option (List Stmt))
    (bs : List (Expr × List Stmt)) :
    (p.branches scope otherwise bs).Mirrors f base files
      (p.branches (f.on scope) otherwise bs) m n := by
  induction bs generalizing m n with
  | nil =>
    cases otherwise with
    | none => exact .pure rfl
    | some body => exact h.block hscope body
  | cons b rest ih =>
    refine .bind (h.expr b.1 hscope) (h.sound.expr hscope (.of_lax _)) fun test m₁ n₁ hn _ => ?_
    refine .of_image fun _ hi => .store_bind ?_
    rw [hi.store.truth]
    exact .ite Iff.rfl (fun _ => h.block (hscope.mono hn) b.2) fun _ => ih (hscope.mono hn)

lemma whileRound (hscope : scope.Live m.census) (condition : Expr) (body : List Stmt) :
    (p.whileRound scope condition body).Mirrors f base files
      (p.whileRound (f.on scope) condition body) m n := by
  refine .bind (h.expr condition hscope) (h.sound.expr hscope (.of_lax _))
    fun test m₁ n₁ hn _ => ?_
  refine .of_image fun _ hi => .store_bind ?_
  rw [hi.store.truth]
  exact .ite Iff.rfl (fun _ => .loopRound (h.block (hscope.mono hn) body)) fun _ => .pure rfl

lemma eachRound (hscope : scope.Live m.census) (targets : List String) (body : List Stmt)
    (constant : Bool) {step : Value × Value}
    (hstep : step.1.Live m.census ∧ step.2.Live m.census) :
    (p.eachRound scope targets body constant step).Mirrors f base files
      (p.eachRound (f.on scope) targets body constant (f.on step)) m n := by
  refine .ite Iff.rfl (fun _ => .fault rfl) fun _ => ?_
  refine .bind (.onStore fun hs => hs.childScope scope)
    (.onStore (StoreM.childScope_does hscope)) fun own m₁ n₁ hn₁ hown => ?_
  have hb : ∀ b ∈ targets.zip [step.1, step.2], b.2.Live m₁.census := by
    intro b hb
    rcases List.mem_cons.mp (List.of_mem_zip hb).2 with h | h
    · exact h ▸ hstep.1.mono hn₁
    · exact List.mem_singleton.mp h ▸ hstep.2.mono hn₁
  have hzip : targets.zip [(f.on step).1, (f.on step).2] = f.on (targets.zip [step.1, step.2]) :=
    f.zip_on targets [step.1, step.2]
  rw [hzip]
  refine .bind (.onStore fun hs => hs.declareAll hown.1 constant _)
    (.onStore (StoreM.declareAll_does hown.1 constant hb)) fun _ m₂ n₂ hn₂ _ => ?_
  exact .loopRound (h.block (hown.1.mono hn₂) body)

omit h in
lemma exportNames (names : List String) :
    (Evaluator.exportNames names).Mirrors f base files (Evaluator.exportNames names) m n := by
  refine .of_image fun hm hi => .get_bind ?_
  rw [hi.module]
  cases hr : m.module with
  | none => exact .fault rfl
  | some r => exact .onStore fun hs => hs.exportNames (hm.module r hr) names

/-- **No statement depends on the numbers of cells.** -/
theorem evalAction (rounds : Nat) (hscope : scope.Live m.census) (a : Action) :
    (p.evalAction rounds scope a).Mirrors f base files
      (p.evalAction rounds (f.on scope) a) m n := by
  cases a with
  | block body => exact h.block hscope body
  | declare x value constant =>
    refine .bind (h.expr? hscope value) (h.sound.expr? hscope (.of_lax _)) fun v m₁ n₁ hn _ => ?_
    have hgetD : (f.on v).getD .null = f.on (v.getD .null) := by cases v <;> rfl
    rw [hgetD]
    exact .bind_pure (.onStore fun hs => hs.declare (hscope.mono hn) x _ constant) fun _ => rfl
  | assign target value =>
    refine .bind (h.expr value hscope) (h.sound.expr hscope (.of_lax _)) fun v m₁ n₁ hn _ => ?_
    exact .bind_pure (h.assign (hscope.mono hn) v target) fun _ => rfl
  | eval e => exact h.expr e hscope
  | ret value =>
    refine .bind (h.expr? hscope value) (h.sound.expr? hscope (.of_lax _)) fun v m₁ n₁ _ _ => ?_
    have hgetD : (f.on v).getD .null = f.on (v.getD .null) := by cases v <;> rfl
    exact .throw (congrArg Exit.returning hgetD)
  | branch bs otherwise => exact h.branches hscope otherwise bs
  | loop condition body =>
    refine .bind_pure (.repeating rounds (fun m' n' hn => ?_) fun m' hn => ?_) fun _ => rfl
    · exact h.whileRound (hscope.mono hn) condition body
    · exact h.sound.whileRound (hscope.mono hn) (.of_lax _) (.of_lax _)
  | each targets subject body constant =>
    refine .bind (h.expr subject hscope) (h.sound.expr hscope (.of_lax _))
      fun v m₁ n₁ hn₁ hv => ?_
    refine .bind (h.iterate hv) (h.sound.iterate hv) fun walk m₂ n₂ hn₂ hwalk => ?_
    have hscope₂ := hscope.mono (hn₁.trans hn₂)
    refine .bind_pure (.walking rounds hwalk (fun step m' n' hn hstep => ?_)
      fun step m' hn hstep => ?_) fun _ => rfl
    · exact h.eachRound (hscope₂.mono hn) targets body constant hstep
    · exact h.sound.eachRound (hscope₂.mono hn) targets (.of_lax _) constant hstep
  | breakLoop => exact .throw rfl
  | continueLoop => exact .throw rfl
  | define g =>
    refine .bind (closure none g) (Sound.closure_does hscope (by rintro c ⟨⟩) (.of_lax _))
      fun r m₁ n₁ hn _ => ?_
    exact .bind_pure (.onStore fun hs => hs.declare (hscope.mono hn) _ (.function r) false)
      fun _ => rfl
  | classDef x parent body => exact h.defineClass hscope x parent body
  | member _ _ _ _ => exact .throw rfl
  | method _ _ => exact .throw rfl
  | exports names => exact .bind_pure (exportNames names) fun _ => rfl

lemma node (hscope : scope.Live m.census) (nd : Node) :
    (Eval.node p scope nd).Mirrors f base files (Eval.node p (f.on scope) nd) m n := by
  cases nd with
  | program t => exact h.program hscope t
  | stmt a => exact h.execute hscope a
  | expr e => exact h.expr e hscope

/-! ### Evaluators of any depth -/

/-- One level deeper. -/
lemma deepen {load : Loader} (hload : load.Mirrored f base files) (rounds : Nat) :
    (p.deepen load rounds).Mirrored f base files where
  sound := h.sound.deepen hload.sound rounds
  expr e hscope := h.evalExpr hload hscope e
  stmt a hscope := h.evalAction rounds hscope a.action
  walk hv := h.iterate hv

end Evaluator.Mirrored

/-- **The evaluator of any depth does not depend on the numbers of cells.** -/
theorem Evaluator.ofDepth_mirrored {f : Renaming} {base : Store} {files : FileTree}
    {load : Loader} (hload : load.Mirrored f base files) (rounds depth : Nat) :
    (ofDepth load rounds depth).Mirrored f base files := by
  induction depth with
  | zero =>
    exact ⟨exhausted_sound _, fun _ _ => .throw rfl, fun _ _ => .throw rfl, fun _ => .throw rfl⟩
  | succ depth ih => exact ih.deepen hload rounds

/-! ### Loading modules -/

section Loading

variable {f : Renaming} {base : Store} {files : FileTree} {m n : Machine}

lemma ModuleCache.add_on (c : ModuleCache) (path : String) (r : Ref .module) :
    ModuleCache.add (f.on c) path (f.on r) = f.on (c.add path r) := by
  unfold ModuleCache.add
  rw [OrderedMap.contains_on, OrderedMap.insert_on]
  split
  · rfl
  · rfl

namespace Eval

lemma newCachedModule_mirrors (path : String) :
    (newCachedModule path).Mirrors f base files (newCachedModule path) m n := by
  refine .bind (.onStore fun hs => hs.newModuleAt path) (.onStore (StoreM.newModuleAt_does path))
    fun r m₁ n₁ _ _ => .of_image fun _ hi => .get_bind ?_
  rw [hi.cache, ModuleCache.add_on]
  cases m₁.world.cache.add path r with
  | error c => exact .throw rfl
  | ok cache => exact fun _ hi => ⟨rfl, { hi with cache := rfl }⟩

lemma parse_image (text path : String) (h : Machine.Image f base files m n) :
    Machine.Image f base files { m with parsed := m.parsed ++ [(path, text)] }
      { n with parsed := n.parsed ++ [(path, text)] } :=
  { h with parsed := congrArg (· ++ [(path, text)]) h.parsed }

lemma info_image (words : List String) (h : Machine.Image f base files m n) :
    Machine.Image f base files { m with err := m.err ++ m.report.info words }
      { n with err := n.err ++ n.report.info words } := by
  refine { h with err := ?_ }
  show n.err ++ n.report.info words = m.err ++ m.report.info words
  rw [h.err, h.report]

lemma readProgram_mirrors (host : Host) (path : String) :
    (readProgram host path).Mirrors f base files (readProgram host path) m n := by
  unfold readProgram
  cases host.files.readText path with
  | error c => exact .throw rfl
  | ok read =>
    rw [orCrash_ok_bind]
    cases read with
    | error refusal => exact .fault rfl
    | ok text =>
      refine .aside_bind (x := parse host text path) (y := parse host text path) rfl rfl rfl rfl
        (parse_image text path) ?_
      cases host.parse text path with
      | crash c => exact .throw rfl
      | syntaxError message => exact .fault rfl
      | program t => exact .pure rfl

end Eval

/-- **Loading a module does not depend on the numbers of cells.** -/
theorem Evaluator.load_mirrored (host : Host) : Loader.Mirrored f base files (load host) := by
  have hadmitted : host.Admitted false := fun _ _ _ _ => .of_lax _
  refine ⟨load_sound hadmitted fun _ _ => trivial, fun {p} h name m n => ?_⟩
  unfold load
  cases Path.ofModuleName host.files.cwd name with
  | error c => exact .throw rfl
  | ok path =>
    refine .ite Iff.rfl (fun _ => .fault rfl) fun _ => .of_image fun hm hi => .get_bind ?_
    rw [hi.cache, OrderedMap.find?_on]
    cases hcache : m.world.cache.find? path.text with
    | some r => exact .pure rfl
    | none =>
      refine .aside_bind (x := Eval.info ["Loading", path.text])
        (y := Eval.info ["Loading", path.text]) rfl rfl rfl rfl (Eval.info_image _) ?_
      refine .bind_of_eq (Eval.readProgram_mirrors host path.text)
        (Eval.readProgram_does hadmitted (fun _ _ => trivial) path.text)
        fun t m₁ n₁ hread _ hbody => ?_
      have hnew : m₁.world.cache.contains path.text = false := by
        rw [Eval.readProgram_world hread]
        simp [OrderedMap.contains, hcache]
      refine .bind (Eval.newCachedModule_mirrors path.text) (Eval.newCachedModule_does hnew)
        fun r m₂ n₂ _ hr => .of_image fun hm₂ hi₂ => .store_bind ?_
      rw [hi₂.store.module hr]
      refine .bind_pure (.withModule hr (.withFrame path.text "<module>" (h.program ?_ t)))
        fun _ => rfl
      exact hm₂.store.moduleScope_live hr

end Loading

/-! ### What hosts ask for -/

namespace Eval

variable {f : Renaming} {base : Store} {files : FileTree} {m n : Machine}

lemma Mirrors.atBottom {x y : Eval Value}
    (h : ∀ stack, x.Mirrors f base files y { m with stack := stack } { n with stack := stack }) :
    (Eval.atBottom x).Mirrors f base files (Eval.atBottom y) m n := by
  intro hm hi
  unfold Eval.atBottom
  rw [hi.stack, hi.modulePath]
  split
  · refine Mirrors.withFrame (m := m) (n := n) m.modulePath "<module>" ?_ hm hi
    rw [hi.stack]
    exact h _
  · have hm' : { m with stack := m.stack } = m := rfl
    have hn' : { n with stack := m.stack } = n := by rw [← hi.stack]
    have hstay := h m.stack
    rw [hm', hn'] at hstay
    exact hstay hm hi

lemma evaluate_mirrors (host : Host) (limits : Limits) (nd : Node) {scope : Ref .scope}
    (hscope : scope.Live m.census) :
    (evaluate host limits nd scope).Mirrors f base files
      (evaluate host limits nd (f.on scope)) m n := by
  have hload : Loader.Mirrored f base files (Evaluator.load host) := Evaluator.load_mirrored host
  have hp := Evaluator.ofDepth_mirrored hload limits.rounds limits.depth
  refine .aside_bind (x := resetReport) (y := resetReport) rfl rfl rfl rfl
    (fun hi => hi.withReport (·.reset)) ?_
  refine .atBottom fun stack => .recording (.boundingDepth (.takingReturn (.outsideLoops ?_)))
  refine hp.node ?_ nd
  exact hscope

lemma openModule_mirrors (host : Host) (raw : String) :
    (openModule host raw).Mirrors f base files (openModule host raw) m n := by
  have enter {r : Ref .module} {m₁ n₁ : Machine} (hr : r.Live m₁.census) :
      (do
        modify fun m : Machine => { m with module := some r }
        return ((← store).module r).scope : Eval (Ref .scope)).Mirrors f base files
      (do
        modify fun m : Machine => { m with module := some (f.on r) }
        return ((← store).module (f.on r)).scope : Eval (Ref .scope)) m₁ n₁ := by
    intro _ hi
    refine ⟨?_, { hi with module := rfl }⟩
    show (n₁.world.store.module (f.on r)).scope = f.on (m₁.world.store.module r).scope
    rw [hi.store.module hr]
    rfl
  have hR : ∀ c, (Regime.lenient false).crash c := fun _ => trivial
  unfold openModule
  by_cases hraw : raw.isEmpty = true
  · rw [if_pos hraw]
    exact .bind (.onStore fun hs => hs.newModuleAt "") (.onStore (StoreM.newModuleAt_does ""))
      fun r m₁ n₁ _ hr => enter hr.1
  · rw [if_neg hraw]
    refine .bind ?_ (moduleOfFile_does hR raw) fun r m₁ n₁ _ hr => enter hr
    unfold moduleOfFile
    cases Path.resolve host.files.cwd raw with
    | error c => exact .throw rfl
    | ok path =>
      rw [orCrash_ok_bind]
      refine .of_image fun _ hi => .get_bind ?_
      rw [hi.cache, OrderedMap.find?_on]
      cases m.world.cache.find? path.text with
      | some r => exact .pure rfl
      | none => exact newCachedModule_mirrors path.text

/-! Complaints show lines of the files of the host. -/

variable {host : Host}

lemma complain_mirrors : (complain host).Mirrors f base host.files (complain host) m n := by
  refine .of_image fun hm hi => .get_bind ?_
  rw [hi.report]
  refine .ite Iff.rfl (fun _ => .pure rfl) fun _ => ?_
  refine .bind (P := fun _ _ => True) ?_ ?_ fun text m₁ n₁ _ _ => ?_
  · refine .get_bind ?_
    rw [hi.report]
    exact .onSources (SourceM.traceback_determined host.reader host.files m.report) fun _ => rfl
  · exact .get_bind (onSources_does (fun _ => trivial) _)
  · intro _ hi₁
    exact ⟨rfl, { hi₁ with err := congrArg (· ++ text ++ "\n") hi₁.err }⟩

lemma Mirrors.complaining {x y : Eval Value} {Q : Store → Value → Prop}
    (h : x.Mirrors f base host.files y m n) (hd : x.Behaves m Q) :
    (Eval.complaining host x).Mirrors f base host.files (Eval.complaining host y) m n := by
  intro hm hi
  have hc := hd hm
  have h := h hm hi
  unfold Eval.complaining
  generalize x m = r, y n = r' at h hc ⊢
  rcases h.cases with ⟨a, m₁, n₁, rfl, rfl, hi'⟩ | ⟨e, m₁, n₁, rfl, rfl, hi'⟩
  · exact ⟨rfl, hi'⟩
  · cases e with
    | fault e =>
      have hcomplain := complain_mirrors (hc.1.sound hm) hi'
      have hfault : f.on (Exit.fault e) = .fault e := rfl
      rw [hfault]
      dsimp only
      rcases hcomplain.cases with ⟨a, m₂, n₂, ha, hb, hi₂⟩ | ⟨d, m₂, n₂, ha, hb, hi₂⟩
      · rw [ha, hb]
        exact ⟨rfl, hi₂⟩
      · rw [ha, hb]
        exact ⟨rfl, hi₂⟩
    | _ => exact ⟨rfl, hi'⟩

lemma faultNowhere_mirrors (e : Fault) :
    (faultNowhere e : Eval Value).Mirrors f base files (faultNowhere e) m n :=
  fun _ hi => ⟨rfl, hi.withReport (·.record e [])⟩

lemma mainProgram_mirrors (limits : Limits) (raw : String) :
    (mainProgram host limits raw).Mirrors f base files (mainProgram host limits raw) m n := by
  unfold mainProgram
  cases host.files.readText raw with
  | error c => exact .throw rfl
  | ok read =>
    rw [orCrash_ok_bind]
    cases read with
    | error refusal => exact faultNowhere_mirrors _
    | ok text =>
      refine .bind (openModule_mirrors host raw) (openModule_does (fun _ => trivial) raw)
        fun scope m₁ n₁ _ hscope => .of_image fun _ hi => .get_bind ?_
      rw [hi.modulePath]
      refine .aside_bind (x := parse host text m₁.modulePath) (y := parse host text m₁.modulePath)
        rfl rfl rfl rfl (parse_image text m₁.modulePath) ?_
      cases host.parse text m₁.modulePath with
      | crash c => exact .throw rfl
      | syntaxError message => exact faultNowhere_mirrors _
      | program t =>
        refine evaluate_mirrors host limits (.program t) ?_
        exact hscope

lemma runFile_mirrors (limits : Limits) (raw : String) :
    (runFile host limits raw).Mirrors f base host.files (runFile host limits raw) m n := by
  refine .aside_bind (x := resetReport) (y := resetReport) rfl rfl rfl rfl
    (fun hi => hi.withReport (·.reset)) ?_
  refine .aside_bind (x := info ["Loading", raw]) (y := info ["Loading", raw]) rfl rfl rfl rfl
    (info_image _) ?_
  exact .complaining (mainProgram_mirrors limits raw)
    (mainProgram_does (fun _ => trivial) (fun _ _ _ _ => .of_lax _) limits raw)

end Eval

end Wei
