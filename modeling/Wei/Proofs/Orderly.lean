import Wei.Proofs.DirectStyle

/-!
Exits stay where they belong, and what is held are values of the language. In direct style a fault
and what is on its way are values like any other, so nothing but the checks of the constructs
keeps them from being bound, put into a list or taken for the answer of a call. The checks are
enough: hosts that evaluate in direct style bring about the same states as others, and these are
sound.
-/

namespace Wei

/-! ### What hosts ask for -/

namespace Eval

variable {m : Machine} {host : Host}

namespace Tells

lemma atBottom {α β : Type} {T : Telling α β} {d : Eval β} {x : Eval α}
    (h : ∀ stack, d.Tells T x { m with stack := stack }) :
    Tells T (Eval.atBottom d) (Eval.atBottom x) m := by
  intro hm
  unfold Eval.atBottom
  split
  · exact withFrame (h _) hm
  · exact h m.stack hm

/-- What a host is answered. -/
lemma settle {d x : Eval Value} (hd : d.Tells .value x m) (hx : x.Serves m) :
    Tells .value (Direct.boundingDepth (d >>= Direct.settle))
      (Eval.recording (Eval.boundingDepth (Eval.takingReturn (Eval.outsideLoops x)))) m := by
  intro hm
  have hd := hd hm
  have hx := hx hm
  show Direct.boundingDepth (EStateM.bind d Direct.settle) m = _
  unfold Direct.boundingDepth Eval.recording Eval.boundingDepth Eval.takingReturn
    Eval.outsideLoops EStateM.bind
  rw [hd]
  -- a stray exit has been kept when it became a fault, so it is the first fault already
  have stray (signal : String) (m₁ : Machine) :
      (Direct.keeping (.error (.strayExit signal)) m₁ : EStateM.Result Exit Machine Value) =
        .ok (.error (.strayExit signal))
          ((m₁.recordFault (.strayExit signal)).recordFault (.strayExit signal)) := by
    rw [m₁.recordFault_recordFault]
    rfl
  generalize x m = r at hx ⊢
  cases r with
  | ok v m₁ =>
    have hv := hx.2
    cases v with
    | error f => exact hv.elim
    | returned v => exact hv.elim
    | breaking => exact hv.elim
    | continuing => exact hv.elim
    | _ => rfl
  | error e m₁ =>
    cases e with
    | breaking => exact stray "break_value" m₁
    | continuing => exact stray "continue_value" m₁
    | _ => rfl

lemma faultNowhere (f : Fault) :
    Tells .value (Eval.answer (Eval.faultNowhere f)) (Eval.faultNowhere f) m :=
  fun _ => rfl

end Tells

namespace Faultless

lemma confined {α : Type} {x : Eval α} (h : x.Faultless) : x.Confined .none := by
  intro m
  cases hr : x m with
  | ok a m₁ => trivial
  | error e m₁ =>
    have he := h m e m₁ hr
    cases e <;> first | rfl | cases he

lemma ite {α : Type} {c : Prop} [Decidable c] {x y : Eval α} (hx : x.Faultless)
    (hy : y.Faultless) : (if c then x else y).Faultless := by
  split
  · exact hx
  · exact hy

lemma openModule (raw : String) : (Eval.openModule host raw).Faultless := by
  have enter (r : Ref .module) : (do
      modify fun m : Machine => { m with module := some r }
      return ((← store).module r).scope : Eval (Ref .scope)).Faultless := fun _ _ _ => nofun
  have file : (moduleOfFile host raw).Faultless := by
    refine .bind (.orCrash _) fun path => .bind (fun _ _ _ => nofun) fun m => ?_
    cases m.world.cache.find? path.text with
    | some r => exact .pure r
    | none => exact newCachedModule_faultless path.text
  unfold Eval.openModule
  by_cases hraw : raw.isEmpty = true
  · rw [if_pos hraw]
    exact .bind (.onStore fun s => ⟨_, _, StoreM.newModuleAt_eq "" s⟩) enter
  · rw [if_neg hraw]
    exact .bind file enter

lemma onSources {α : Type} (x : SourceM α) : (Eval.onSources x).Faultless := by
  intro m e m' h
  unfold Eval.onSources at h
  split at h
  · cases h
  · obtain ⟨⟩ := h
    rfl

lemma complain (host : Host) : (Eval.complain host).Faultless := by
  refine .bind (fun _ _ _ => nofun) fun m => .ite (.pure ()) ?_
  exact .bind (.bind (fun _ _ _ => nofun) fun _ => .onSources _) fun text => fun _ _ _ => nofun

end Faultless

/-- A fault is complained about when it has been answered. -/
lemma Tells.complaining {d x : Eval Value} (hd : d.Tells .value x m) (hx : x.Serves m)
    (hc : Leeway.none.Lets (x m)) :
    Tells .value (do
        let result ← d
        if result.isError then Eval.complain host
        Pure.pure result) (Eval.complaining host x) m := by
  intro hm
  have hd := hd hm
  have hx := hx hm
  show EStateM.bind d _ m = Telling.value.tell (Eval.complaining host x m)
  unfold EStateM.bind Eval.complaining
  rw [hd]
  generalize x m = r at hx hc ⊢
  cases r with
  | ok v m₁ =>
    have hv := hx.2
    cases v with
    | error f => exact hv.elim
    | _ => rfl
  | error e m₁ =>
    cases e with
    | returning v => cases hc
    | breaking => cases hc
    | continuing => cases hc
    | fault f =>
      show EStateM.bind (Eval.complain host) (fun _ => Pure.pure (Value.error f)) m₁ = _
      unfold EStateM.bind
      dsimp only
      cases hr : Eval.complain host m₁ with
      | ok u m₂ => rfl
      | error e m₂ => exact (Telling.tell_of_halt (Faultless.complain host m₁ e m₂ hr)).symm
    | _ => rfl

end Eval

namespace Direct

variable {m : Machine} {scope : Ref .scope} (host : Host) (limits : Limits)

lemma Follows.node {d : Direct} {p : Evaluator} (h : d.Follows p) (hscope : scope.Live m.census)
    (n : Node) : (d.node scope n).Tells .value (Eval.node p scope n) m := by
  cases n with
  | program t => exact h.program hscope t
  | stmt s => exact h.execute hscope s
  | expr e => exact h.expr e hscope

/-- **What a host is answered in direct style** is what the evaluation by exits comes to. -/
theorem evaluate_tells (n : Node) (hscope : scope.Live m.census) :
    (evaluate host limits n scope).Tells .value (Eval.evaluate host limits n scope) m := by
  have h := follows_ofDepth host limits.rounds limits.depth
  refine .aside_bind rfl rfl rfl (.atBottom fun stack => .settle (h.node ?_ n) ?_)
  · exact hscope
  · refine Eval.node_does h.sound ?_ (.of_lax _)
    exact hscope

lemma mainProgram_tells (raw : String) :
    (mainProgram host limits raw).Tells .value (Eval.mainProgram host limits raw) m := by
  refine .orCrash_bind fun read => ?_
  cases read with
  | error refusal => exact .faultNowhere _
  | ok text =>
    refine .bind (.openModule raw) (Eval.openModule_does (fun _ => trivial) raw)
      fun scope m₁ _ hscope => .get_bind (.aside_bind rfl rfl rfl ?_)
    cases host.parse text m₁.modulePath with
    | crash c => exact .halt rfl
    | syntaxError message => exact .faultNowhere _
    | program t => exact evaluate_tells host limits (.program t) hscope

lemma mainProgram_confined (raw : String) :
    (Eval.mainProgram host limits raw).Confined .none := by
  refine .bind (Eval.Faultless.orCrash _).confined fun read => ?_
  have nowhere (f : Fault) : (Eval.faultNowhere f : Eval Value).Confined .none := fun _ => rfl
  cases read with
  | error refusal => exact nowhere _
  | ok text =>
    refine .bind (Eval.Faultless.openModule raw).confined fun scope => ?_
    refine .bind (fun _ => trivial) fun m => .bind (fun _ => trivial) fun parsed => ?_
    cases parsed with
    | crash c => exact fun _ => rfl
    | syntaxError message => exact nowhere _
    | program t => exact Eval.evaluateBy_confined _ limits (.program t) scope

lemma runFile_confined (raw : String) : (Eval.runFile host limits raw).Confined .none := by
  refine .bind (fun _ => trivial) fun _ => .bind (fun _ => trivial) fun _ m => ?_
  have hc := mainProgram_confined host limits raw m
  unfold Eval.complaining
  generalize Eval.mainProgram host limits raw m = r at hc ⊢
  split
  · next f m₁ =>
    have hc := (Eval.Faultless.complain host).confined m₁
    generalize Eval.complain host m₁ = result at hc ⊢
    cases result with
    | ok u m₂ => rfl
    | error e m₂ => exact hc
  · exact hc

/-- Running a file in direct style answers what running it by exits comes to. -/
theorem runFile_tells (raw : String) :
    (runFile host limits raw).Tells .value (Eval.runFile host limits raw) m := by
  refine .aside_bind rfl rfl rfl (.aside_bind rfl rfl rfl ?_)
  exact .complaining (mainProgram_tells host limits raw)
    (Eval.mainProgram_does (fun _ => trivial) (fun _ _ _ _ => .of_lax _) limits raw)
    (mainProgram_confined host limits raw _)

end Direct

/-! ### Engines -/

/-- **What hosts can bring about that evaluate in direct style.** Sessions are made, and take turns
in which a host makes a module current, has any tree evaluated in a scope that is there, or has a
file run. -/
inductive Engine.Reached : Engine → Prop
  | initial : Reached .initial
  | newSession {p : Engine} (verbose : Bool) (limits : Limits) (cache : Option Nat) :
    Reached p → Reached (p.newSession verbose limits cache)
  | openModule {p : Engine} (i : Nat) (host : Host) (raw : String) :
    Reached p → Reached (p.turn i (Eval.openModule host raw)).2
  | evaluate {p : Engine} (i : Nat) (host : Host) (limits : Limits) (n : Node)
      {scope : Ref .scope} :
    Reached p → scope.Live p.store.census →
      Reached (p.turn i (Direct.evaluate host limits n scope)).2
  | runFile {p : Engine} (i : Nat) (host : Host) (limits : Limits) (raw : String) :
    Reached p → Reached (p.turn i (Direct.runFile host limits raw)).2

namespace Engine

variable {p : Engine}

/-- A turn in direct style leaves what the turn by exits leaves. -/
lemma turn_of_tells {i : Nat} {d x : Eval Value} (hp : p.Sound false)
    (h : d.Tells .value x (p.machine i)) : (p.turn i d).2 = (p.turn i x).2 := by
  have h := h (hp.machine i)
  unfold Engine.turn
  rw [h]
  generalize x (p.machine i) = r
  cases r with
  | ok v m => rfl
  | error e m => cases e <;> rfl

/-- **Hosts bring about the same in either style.** -/
theorem reached_iff : p.Reached ↔ p.Reachable false := by
  constructor
  · intro h
    induction h with
    | initial => exact .initial
    | newSession verbose limits cache _ ih => exact .newSession verbose limits cache ih
    | openModule i host raw _ ih => exact .openModule i host raw ih
    | evaluate i host limits n _ hscope ih =>
      rw [turn_of_tells ih.sound (Direct.evaluate_tells host limits n hscope)]
      exact .evaluate i limits ih (fun _ _ _ _ => .of_lax _) (.of_lax _) hscope
    | runFile i host limits raw _ ih =>
      rw [turn_of_tells ih.sound (Direct.runFile_tells host limits raw)]
      exact .runFile i limits raw ih fun _ _ _ _ => .of_lax _
  · intro h
    induction h with
    | initial => exact .initial
    | newSession verbose limits cache _ ih => exact .newSession verbose limits cache ih
    | openModule i host raw _ ih => exact .openModule i host raw ih
    | @evaluate p i host limits n scope hp _ _ hscope ih =>
      rw [← turn_of_tells hp.sound (Direct.evaluate_tells host limits n hscope)]
      exact .evaluate i host limits n ih hscope
    | @runFile p i host limits raw hp _ ih =>
      rw [← turn_of_tells hp.sound (Direct.runFile_tells host limits raw)]
      exact .runFile i host limits raw ih

end Engine

/-! ### What is answered, and what is held -/

/-- A value of the language, of which nothing is dangling, or a fault. -/
inductive Value.Settled (n : Census) : Value → Prop
  | value {v : Value} : v.isOrdinary = true → v.Live n → Settled n v
  | fault (f : Fault) : Settled n (.error f)

/-- What a statement may answer: also a value of the language that is being returned, and what
`break` and `continue` send on its way. -/
inductive Value.Passed (n : Census) : Value → Prop
  | settled {v : Value} : v.Settled n → Passed n v
  | returned {v : Value} : v.isOrdinary = true → v.Live n → Passed n (.returned v)
  | breaking : Passed n .breaking
  | continuing : Passed n .continuing

/-- The evaluation gets on by changes that a session may make. What it answers is as `Q` says, and
without an answer the host cannot go on. -/
def Machine.Answers (Q : Census → Value → Prop) (m : Machine) (d : Eval Value) : Prop :=
  match d m with
  | .ok v m' => Machine.Run false m m' ∧ Q m'.census v
  | .error e m' => Machine.Run false m m' ∧ e.told? = none

/-- **Signals are confined and what is held are values**: in this state no evaluation lets a
`return`, `break` or `continue` out of where it belongs, and neither these nor faults are held
anywhere in the store. -/
structure Machine.Orderly (m : Machine) : Prop where
  /-- Bindings, elements, keys, members and receivers are values of the language. -/
  held {k : Kind} (r : Ref k) : r.Live m.census →
    ∀ v ∈ Cell.values (m.world.store.read r), v.isOrdinary = true ∧ v.Live m.census
  /-- Expressions answer a value of the language or a fault. -/
  expr (host : Host) (rounds depth : Nat) {scope : Ref .scope} (e : Expr) :
    scope.Live m.census →
      m.Answers Value.Settled ((Direct.ofDepth host rounds depth).expr scope e)
  /-- So do calls, of whatever can be called or not. -/
  apply (host : Host) (rounds depth : Nat) {callee : Value} {args : List Value} :
    callee.Live m.census → (∀ v ∈ args, v.Live m.census) →
      m.Answers Value.Settled ((Direct.ofDepth host rounds depth).apply callee args)
  /-- Statements answer besides what is on its way, and what they return are values of the
  language. -/
  stmt (host : Host) (rounds depth : Nat) {scope : Ref .scope} (a : Stmt) :
    scope.Live m.census →
      m.Answers Value.Passed ((Direct.ofDepth host rounds depth).stmt scope a)
  /-- What a host has evaluated answers a value of the language or a fault, whatever it is. -/
  evaluate (host : Host) (limits : Limits) (n : Node) {scope : Ref .scope} :
    scope.Live m.census → m.Answers Value.Settled (Direct.evaluate host limits n scope)
  /-- So does a file that a host has run. -/
  runFile (host : Host) (limits : Limits) (raw : String) :
    m.Answers Value.Settled (Direct.runFile host limits raw)
  /-- By exits, too, none gets out of an expression, a call or what a host has evaluated, not even
  if the scope or the values are dangling. -/
  exits_expr (host : Host) (rounds depth : Nat) (scope : Ref .scope) (e : Expr) :
    Leeway.none.Lets ((Evaluator.ofDepth (Evaluator.load host) rounds depth).expr scope e m)
  exits_apply (host : Host) (rounds depth : Nat) (callee : Value) (args : List Value) :
    Leeway.none.Lets ((Evaluator.ofDepth (Evaluator.load host) rounds depth).apply callee args m)
  exits_evaluate (host : Host) (limits : Limits) (n : Node) (scope : Ref .scope) :
    Leeway.none.Lets (Eval.evaluate host limits n scope m)

namespace Machine

variable {m : Machine} {d x : Eval Value}

lemma answers_passed (hm : m.Sound false) (hd : d.Tells .value x m) (hx : x.Serves m) :
    m.Answers Value.Passed d := by
  have hd := hd hm
  have hx := hx hm
  unfold Answers
  rw [hd]
  generalize x m = r at hx ⊢
  cases r with
  | ok v m₁ => exact ⟨hx.1, .settled (.value hx.2.isOrdinary hx.2)⟩
  | error e m₁ =>
    cases e with
    | fault f => exact ⟨hx.1, .settled (.fault f)⟩
    | returning v =>
      have hv : v.Live m₁.census := hx.2
      exact ⟨hx.1, .returned hv.isOrdinary hv⟩
    | breaking => exact ⟨hx.1, .breaking⟩
    | continuing => exact ⟨hx.1, .continuing⟩
    | _ => exact ⟨hx.1, rfl⟩

lemma answers_settled (hm : m.Sound false) (hd : d.Tells .value x m) (hx : x.Serves m)
    (hc : Leeway.none.Lets (x m)) : m.Answers Value.Settled d := by
  have hd := hd hm
  have hx := hx hm
  unfold Answers
  rw [hd]
  generalize x m = r at hx hc ⊢
  cases r with
  | ok v m₁ => exact ⟨hx.1, .value hx.2.isOrdinary hx.2⟩
  | error e m₁ =>
    cases e with
    | fault f => exact ⟨hx.1, .fault f⟩
    | returning v => cases hc
    | breaking => cases hc
    | continuing => cases hc
    | _ => exact ⟨hx.1, rfl⟩

/-- Every sound state is orderly. -/
lemma Sound.orderly (hm : m.Sound false) : m.Orderly := by
  have hR : ∀ c, (Regime.lenient false).crash c := fun _ => trivial
  have hhost (host : Host) : host.Admitted false := fun _ _ _ _ => .of_lax _
  have follows (host : Host) (rounds depth : Nat) := Direct.follows_ofDepth host rounds depth
  constructor
  case held =>
    intro k r hr v hv
    have hlive := (hm.store.cell r hr).values v hv
    exact ⟨hlive.isOrdinary, hlive⟩
  case expr =>
    intro host rounds depth scope e hscope
    have h := follows host rounds depth
    exact answers_settled hm (h.expr e hscope) (h.sound.expr hscope (.of_lax _))
      (h.confined.expr scope e m)
  case apply =>
    intro host rounds depth callee args hc hargs
    have h := follows host rounds depth
    exact answers_settled hm (h.apply hc hargs) (h.sound.apply hc hargs)
      (h.confined.apply callee args m)
  case stmt =>
    intro host rounds depth scope a hscope
    have h := follows host rounds depth
    exact answers_passed hm (h.stmt a hscope) (h.sound.stmt hscope (.of_lax _))
  case evaluate =>
    intro host limits n scope hscope
    exact answers_settled hm (Direct.evaluate_tells host limits n hscope)
      (Eval.evaluate_does hR (hhost host) limits hscope (.of_lax _))
      (Eval.evaluateBy_confined _ limits n scope m)
  case runFile =>
    intro host limits raw
    exact answers_settled hm (Direct.runFile_tells host limits raw)
      (Eval.runFile_does hR (hhost host) limits raw) (Direct.runFile_confined host limits raw m)
  case exits_expr =>
    intro host rounds depth scope e
    exact (follows host rounds depth).confined.expr scope e m
  case exits_apply =>
    intro host rounds depth callee args
    exact (follows host rounds depth).confined.apply callee args m
  case exits_evaluate =>
    intro host limits n scope
    exact Eval.evaluateBy_confined _ limits n scope m

end Machine

/-- **Signals are confined and what is held are values**, in every state that a session can get into
during a turn, after whatever hosts have done before in direct style. -/
theorem Engine.Reached.orderly_at_all_times {p : Engine} (hp : p.Reached) (i : Nat)
    {m : Machine} (hm : Machine.Run false (p.machine i) m) : m.Orderly := by
  have hsound := (Engine.reached_iff.mp hp).sound.machine i
  exact Machine.Sound.orderly
    (Conduct.Run.sound (C := Machine.conduct (.lenient false)) hm hsound)

/-- A list has been bound to a name. Of another, one element of which was a fault, nothing has been
made. -/
theorem Engine.Reached.orderly_after_fault :
    let host : Host := ⟨.empty ⟨[]⟩, fun _ _ => .syntaxError "", Text.line?⟩
    let start := Engine.initial.newSession false .standard none
    let first := (start.turn 0 (Eval.openModule host "")).2
    let list (x : String) (e : Expr) : Stmt := .mk 1 (.declare x (some (.list [e])) false)
    let program : Node := .program ⟨[list "x" (.literal (.int 1)), list "y" (.name "z")]⟩
    let turn := first.turn 0 (Direct.evaluate host ⟨4, 1⟩ program ⟨0⟩)
    (⟨0⟩ : Ref .scope).Live first.store.census ∧
      turn.1.result = .ok (.error (.undefinedName "z")) ∧ turn.2.store.lists.size = 1 ∧
      (turn.2.machine 0).Orderly := by
  intro host start first list program turn
  have hfirst : first.Reached := .openModule 0 host "" (.newSession false .standard none .initial)
  have hscope : (⟨0⟩ : Ref .scope).Live first.store.census := Nat.zero_lt_one
  have hturn : turn.2.Reached := .evaluate 0 host ⟨4, 1⟩ program hfirst hscope
  have hresult : turn.1.result = .ok (.error (.undefinedName "z")) := by decide +kernel
  have hlists : turn.2.store.lists.size = 1 := by decide +kernel
  exact ⟨hscope, hresult, hlists, hturn.orderly_at_all_times 0 .refl⟩

end Wei
