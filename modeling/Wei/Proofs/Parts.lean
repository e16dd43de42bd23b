import Mathlib.Logic.Relation
import Wei.Proofs.Imports
import Wei.Proofs.Inquiry

/-!
Which parts each construct evaluates, and where they stand.

A part of a construct stands in the same code and in the same statement; or it is a statement inside
of the construct; or it is a statement of a function that the construct calls, or of the text that
it loads. In the first two cases it runs in the frame of the construct, in the third in a new one.
The frame is on the line of the statement that is evaluated, but for one case: when a loop has run
its body, the condition is evaluated again with the frame on the line where the body left it.
-/

namespace Wei

/-! ### Places in code -/

/-- The scope is there, and was made inside of the other. -/
def Store.Around (s : Store) (r q : Ref .scope) : Prop :=
  r.index < s.scopes.size ∧ (s.scope r).outer = some q

/-- The one scope is the other or was made somewhere inside of it. -/
def Store.Lies (s : Store) : Ref .scope → Ref .scope → Prop := Relation.ReflTransGen s.Around

lemma Store.Extends.around {s s' : Store} (h : s.Extends s') {r q : Ref .scope}
    (hr : s.Around r q) : s'.Around r q :=
  ⟨Nat.lt_of_lt_of_le hr.1 h.scopes, (h.outer hr.1).trans hr.2⟩

lemma Store.Extends.lies {s s' : Store} (h : s.Extends s') {r q : Ref .scope} (hr : s.Lies r q) :
    s'.Lies r q := by
  induction hr with
  | refl => exact .refl
  | tail _ hstep ih => exact ih.tail (h.around hstep)

/-- The one scope is the other or was made somewhere inside of it, where neither it nor what is in
between is among the first `n` scopes. -/
def Store.Enters (s : Store) (n : Nat) : Ref .scope → Ref .scope → Prop :=
  Relation.ReflTransGen fun r q => n ≤ r.index ∧ s.Around r q

namespace Store.Enters

variable {s s' : Store} {n n' : Nat} {r q : Ref .scope}

lemma single (hr : n ≤ r.index) (h : s.Around r q) : s.Enters n r q :=
  Relation.ReflTransGen.single ⟨hr, h⟩

lemma head {p : Ref .scope} (hr : n ≤ r.index) (h : s.Around r q) (hq : s.Enters n q p) :
    s.Enters n r p :=
  Relation.ReflTransGen.head ⟨hr, h⟩ hq

lemma lies (h : s.Enters n r q) : s.Lies r q := Relation.ReflTransGen.mono (fun _ _ h => h.2) _ _ h

lemma mono (h : s.Enters n r q) (hn : n' ≤ n) : s.Enters n' r q :=
  Relation.ReflTransGen.mono (fun _ _ h => ⟨hn.trans h.1, h.2⟩) _ _ h

/-- What is inside of a scope that is not among the first is not among the first. -/
lemma le_index (h : s.Enters n r q) (hq : n ≤ q.index) : n ≤ r.index := by
  cases h using Relation.ReflTransGen.head_induction_on with
  | refl => exact hq
  | head hstep _ => exact hstep.1

end Store.Enters

lemma Store.Extends.enters {s s' : Store} (h : s.Extends s') {n : Nat} {r q : Ref .scope}
    (hr : s.Enters n r q) : s'.Enters n r q :=
  Relation.ReflTransGen.mono (fun _ _ hstep => ⟨hstep.1, h.around hstep.2⟩) _ _ hr

/-- The innermost frame is on the line, if somebody said which it is. -/
def CallStack.On (s : CallStack) (line : Int) : Prop := line ≠ 0 → ∀ f ∈ s.top?, f.line = line

namespace Action

/-- The statements that are executed as parts of the action, in the same frame. -/
def inner : Action → List Stmt
  | .block body => body
  | .branch bs otherwise => bs.flatMap (·.2) ++ otherwise.getD []
  | .loop _ body => body
  | .each _ _ body _ => body
  | _ => []

/-- The declarations in the body of a class. -/
def members : Action → List Stmt
  | .classDef _ _ body => body
  | _ => []

/-- The function that a member of a class defines. -/
def method? : Action → Option FunctionLiteral
  | .method f _ => some f
  | _ => none

/-- The functions that the action makes by itself. -/
def literals : Action → List FunctionLiteral
  | .define f => [f]
  | .classDef _ _ body => body.filterMap (·.action.method?)
  | _ => []

lemma mem_literals {a : Action} {s : Stmt} (hs : s ∈ a.members) {f : FunctionLiteral}
    {classLevel : Bool} (hf : s.action = .method f classLevel) : f ∈ a.literals := by
  cases a with
  | classDef x parent body => exact List.mem_filterMap.mpr ⟨s, hs, by rw [hf]; rfl⟩
  | _ => cases hs

/-- Is the action a loop? -/
def isLoop : Action → Bool
  | .loop _ _ => true
  | .each _ _ _ _ => true
  | _ => false

end Action

namespace Exit

/-- Is the exit on its way to a loop? -/
def isStray : Exit → Bool
  | .breaking => true
  | .continuing => true
  | _ => false

/-- Is the exit on its way to the end of a function? -/
def isReturn : Exit → Bool
  | .returning _ => true
  | _ => false

end Exit

/-- Which exits of the statements inside of an action come out of it. -/
def Action.lets (a : Action) (e : Exit) : Bool := !(a.isLoop && e.isStray)

/-- Do the parts of the task stand in different places? Those of an import and of a class do. -/
def Task.isMixed : Task → Bool
  | .expr _ (.load _) => true
  | .stmt _ (.mk _ (.classDef _ _ _)) => true
  | _ => false

/-- The scope in which a task is evaluated. -/
def Task.scope? : Task → Option (Ref .scope)
  | .expr scope _ => some scope
  | .stmt scope _ => some scope
  | .walk _ => none

/-- The functions that a task makes by itself. -/
def Task.literals : Task → List FunctionLiteral
  | .expr _ (.function f) => [f]
  | .stmt _ s => s.action.literals
  | _ => []

/-- A task in a scope, with all of its parts in one place. -/
structure Task.PlainIn (t : Task) (scope : Ref .scope) : Prop where
  plain : t.isMixed = false
  scope : t.scope? = some scope

namespace Reaction

/-- Where no loop is around, the exits to loops are faults. -/
def straying : Exit → Machine → Exit × Machine
  | .breaking, m => (.fault (.strayExit "break_value"), m.recordFault (.strayExit "break_value"))
  | .continuing, m =>
    (.fault (.strayExit "continue_value"), m.recordFault (.strayExit "continue_value"))
  | e, m => (e, m)

/-- The frame is taken off. -/
def popping (e : Exit) (m : Machine) : Exit × Machine := (e, { m with stack := m.stack.pop })

/-- Another module is current. -/
def leaving (module : Option (Ref .module)) (e : Exit) (m : Machine) : Exit × Machine :=
  (e, { m with module := module })

/-- What becomes of a call when a statement of the function exits. -/
def called : Reaction := ((noting fun e => !e.isReturn).after straying).after popping

/-- What becomes of an import when a statement of the text exits. -/
def loaded (module : Option (Ref .module)) : Reaction := called.after (leaving module)

end Reaction

namespace Machine

/-- A statement of a function that has been called in the first state is evaluated in the second. -/
structure Calls (m : Machine) (f : Ref .function) (own : Ref .scope) (s : Stmt) (m' : Machine) :
    Prop where
  body : s ∈ (m.world.store.function f).body
  frame : ∃ line, m'.stack.frames =
    ⟨(m.world.store.function f).path, (m.world.store.function f).title, line⟩ :: m.stack.frames
  line : m'.stack.On s.line
  module : m'.module = m.module
  report : m'.report = m.report
  store : m.world.store.Extends m'.world.store
  fresh : m.world.store.scopes.size ≤ own.index
  enters : m'.world.store.Enters m.world.store.scopes.size own (m.world.store.function f).scope

/-- The state in which the text at a path starts that is imported. -/
def atText (m : Machine) (host : Host) (path : String) : Machine :=
  { (m.reading host path).addModule path with
    module := some ⟨m.world.store.modules.size⟩
    stack := m.stack.push path "<module>" }

/-- A statement of a text that has been imported in the first state is evaluated in the second. -/
structure Imports (m : Machine) (host : Host) (name path : String) (s : Stmt) (m' : Machine) :
    Prop where
  find : host.find m.world.cache name = .file path
  body : ∃ p, (host.read path).2 = .ok p ∧ s ∈ p.body
  onward : (m.atText host path).Onward m'
  line : m'.stack.On s.line

end Machine

/-- **The parts of a task**, as it asks for them when these have been asked for, and what becomes of
the task if the part exits. -/
inductive Part (host : Host) (t : Task) (m : Machine) (h : List Query) :
    Task → Machine → Reaction → Prop
  /-- An expression in the same statement. -/
  | expr {scope : Ref .scope} {e : Expr} {m' : Machine} : t.PlainIn scope → m.Steady m' →
    Part host t m h (.expr scope e) m' .pass
  /-- The name of what is imported, which comes first. -/
  | name {scope : Ref .scope} {e : Expr} : t = .expr scope (.load e) → h = [] →
    Part host t m h (.expr scope e) m .pass
  /-- The class that is extended, which comes first. -/
  | parent {scope : Ref .scope} {line : Int} {x : String} {e : Expr} {body : List Stmt} :
    t = .stmt scope (.mk line (.classDef x (some e) body)) → Part host t m h (.expr scope e) m .pass
  /-- The condition of a loop, when statements of its body have been evaluated. -/
  | again {scope own : Ref .scope} {line : Int} {condition : Expr} {body : List Stmt} {s : Stmt}
      {m' m₁ : Machine} : t = .stmt scope (.mk line (.loop condition body)) → s ∈ body →
    Asked h (.stmt own s) m₁ → m.Onward m' → Part host t m h (.expr scope condition) m' .pass
  /-- The value of a member in the body of a class. -/
  | member {scope : Ref .scope} {s₀ s : Stmt} {e : Expr} {m' : Machine} : t = .stmt scope s₀ →
    s ∈ s₀.action.members → m.Onward m' → m'.stack.On s.line →
    Part host t m h (.expr scope e) m' (.noting fun _ => true)
  /-- The walk through what a method answers. -/
  | walk {v : Value} {m' : Machine} : t.isMixed = false → m.Steady m' →
    Part host t m h (.walk v) m' .pass
  /-- A statement inside of a statement. -/
  | stmt {scope own : Ref .scope} {s₀ s : Stmt} {m' : Machine} : t = .stmt scope s₀ →
    s ∈ s₀.action.inner → m.Onward m' → m'.stack.On s.line →
    m'.world.store.Enters m.world.store.scopes.size own scope →
    Part host t m h (.stmt own s) m' (.noting s₀.action.lets)
  /-- A statement of a function that is called. -/
  | call {f : Ref .function} {own : Ref .scope} {s : Stmt} {m₁ m' : Machine} :
    t.isMixed = false → m.Steady m₁ → m₁.Calls f own s m' → Part host t m h (.stmt own s) m' .called
  /-- A statement of a text that is imported. -/
  | text {name path : String} {scope : Ref .scope} {e : Expr} {s : Stmt} {m₁ m' : Machine} :
    t = .expr scope (.load e) → [⟨.expr scope e, m, .ok (.str name) m₁⟩] <:+ h → m.Steady m₁ →
    m₁.Imports host name path s m' →
    Part host t m h (.stmt ⟨m₁.world.store.scopes.size⟩ s) m' (.loaded m.module)

/-- One more function is there. -/
def Stock.adding (σ : Stock) (c : Closure) : Stock := { σ with functions := σ.functions.push c }

/-- What a task changes in the stock by itself, when these parts have been asked for: it makes
functions, or it has a module come into the cache, whose name is known then. -/
inductive Alteration (host : Host) (t : Task) (m : Machine) (h : List Query) :
    Stock → Stock → Prop
  | function {scope : Ref .scope} {m' : Machine} {f : FunctionLiteral} (owner : Option (Ref .cls)) :
    f ∈ t.literals → t.scope? = some scope → m.Onward m' → Alteration host t m h m'.stock
      (m'.stock.adding ⟨f.name, f.params, f.body, scope, m'.modulePath, owner⟩)
  | module {name path : String} {scope : Ref .scope} {e : Expr} {p : Program} {m' : Machine} :
    t = .expr scope (.load e) → h = [⟨.expr scope e, m, .ok (.str name) m'⟩] → m.Steady m' →
    host.find m'.world.cache name = .file path → (host.read path).2 = .ok p →
    Alteration host t m h m'.stock (m'.atText host path).stock

/-- The manner in which a task goes about it. -/
def Task.manner (t : Task) (host : Host) (m : Machine) : Manner :=
  ⟨Part host t m, Alteration host t m⟩

/-! ### Operations of their own -/

/-- The operation changes neither frames nor module nor report, it extends the store, but not by
functions, and if it exits it has failed. -/
structure Eval.Apart {α : Type} (x : Eval α) : Prop where
  steady (m : Machine) : m.Steady (x m).state
  stock (m : Machine) : (x m).state.stock = m.stock
  failing {m m₁ : Machine} {e : Exit} : x m = .error e m₁ → e.Failing

namespace Eval.Apart

variable {α β : Type}

lemma pure (a : α) : (Pure.pure a : Eval α).Apart :=
  ⟨fun m => .refl m, fun _ => rfl, fun h => by cases h⟩

lemma throw {e : Exit} (he : e.Failing) : (MonadExcept.throw e : Eval α).Apart :=
  ⟨fun m => .refl m, fun _ => rfl, fun h => by
    cases h
    exact he⟩

lemma fault (f : Fault) : (Eval.fault f : Eval α).Apart := .throw trivial

lemma store : Eval.store.Apart := ⟨fun m => .refl m, fun _ => rfl, fun h => by cases h⟩

lemma bind {x : Eval α} {g : α → Eval β} (hx : x.Apart) (hg : ∀ a, (g a).Apart) :
    (x >>= g).Apart := by
  constructor
  case steady =>
    intro m
    have hsteady := hx.steady m
    cases h : x m with
    | ok a m₁ =>
      rw [EStateM.bind_of_ok h]
      rw [h] at hsteady
      exact hsteady.trans ((hg a).steady m₁)
    | error e m₁ =>
      rw [EStateM.bind_of_error h]
      rw [h] at hsteady
      exact hsteady
  case stock =>
    intro m
    have hstock := hx.stock m
    cases h : x m with
    | ok a m₁ =>
      rw [EStateM.bind_of_ok h]
      rw [h] at hstock
      exact ((hg a).stock m₁).trans hstock
    | error e m₁ =>
      rw [EStateM.bind_of_error h]
      rw [h] at hstock
      exact hstock
  case failing =>
    intro m m₂ e he
    cases h : x m with
    | ok a m₁ =>
      rw [EStateM.bind_of_ok h] at he
      exact (hg a).failing he
    | error e' m₁ =>
      rw [EStateM.bind_of_error h] at he
      cases he
      exact hx.failing h

lemma askStore (y : Store → Except Fault α) : (Eval.askStore y).Apart := by
  constructor
  case failing =>
    intro m m₁ e h
    unfold Eval.askStore at h
    split at h <;> cases h
    trivial
  all_goals
    intro m
    unfold Eval.askStore
    cases y m.world.store <;> rfl

lemma orCrash (y : Except Crash α) : (Eval.orCrash y).Apart := by
  cases y with
  | ok a => exact .pure a
  | error c => exact .throw trivial

lemma onStore {y : StoreM α} (hy : y.Within Store.SameCode) : (Eval.onStore y).Apart := by
  have key (m : Machine) : ∃ s, m.world.store.SameCode s ∧
      (Eval.onStore y m).state = { m with world.store := s } := by
    refine ⟨y.after m.world.store, hy m.world.store, ?_⟩
    rw [Eval.onStore_eq]
    unfold EStateM.after
    cases y m.world.store <;> rfl
  constructor
  case steady =>
    intro m
    obtain ⟨s, hs, h⟩ := key m
    rw [h]
    exact ⟨rfl, rfl, rfl, hs.extends'⟩
  case stock =>
    intro m
    obtain ⟨s, hs, h⟩ := key m
    rw [h]
    exact congrArg (Stock.mk m.world.cache) hs.functions
  case failing =>
    intro m m₁ e h
    rw [Eval.onStore_eq] at h
    split at h <;> cases h
    trivial

lemma onContents {y : StoreM α} (hy : y.Within Store.SameButContents) : (Eval.onStore y).Apart :=
  .onStore (hy.imp fun _ _ => .of_sameButContents)

lemma builtin (b : Builtin) (args : List Value) : (Eval.onWorld (b.call args)).Apart := by
  have key (m : Machine) : ∃ out, (Eval.onWorld (b.call args) m).state =
      { m with world.out := out } := by
    rw [Eval.onWorld_eq]
    unfold Builtin.call
    cases b.outcome m.world.store args <;> exact ⟨_, rfl⟩
  constructor
  case steady =>
    intro m
    obtain ⟨out, h⟩ := key m
    rw [h]
    exact ⟨rfl, rfl, rfl, .refl _⟩
  case stock =>
    intro m
    obtain ⟨out, h⟩ := key m
    rw [h]
    rfl
  case failing =>
    intro m m₁ e h
    rw [Eval.onWorld_eq] at h
    unfold Builtin.call at h
    cases hb : b.outcome m.world.store args with
    | ok v =>
      rw [hb] at h
      cases h
    | error e' =>
      rw [hb] at h
      cases h
      obtain ⟨f, rfl⟩ | rfl := Builtin.outcome_error hb <;> trivial

end Eval.Apart

/-! ### Constructs in one statement -/

/-- The construct has come to an end by itself, with the frame on the line on which it was. -/
def Machine.EndsSteady (m : Machine) {α : Type} (_ : List Query) (r : Outcome α) : Prop :=
  m.Steady r.state ∧ ∀ e m₁, r = .error e m₁ → e.Failing

/-- An exit is the same for those around. -/
lemma Machine.EndsSteady.exit {m m₁ : Machine} {α β : Type} {h : List Query} {e : Exit}
    (hr : m.EndsSteady (α := α) h (.error e m₁)) : m.EndsSteady (α := β) h (.error e m₁) :=
  ⟨hr.1, fun e' m₂ he => hr.2 e' m₂ (by cases he; rfl)⟩

/-- A part all of whose exits come out. -/
lemma Manner.Plan.pass {M : Manner} {h : List Query} {t : Task} {m : Machine}
    (hasks : M.Asks h t m .pass) :
    M.Plan (fun h' r => (∃ a m₁, r = .ok a m₁) ∧ t.Keeps m r ∧ h' = ⟨t, m, r⟩ :: h) h m.stock
      fun ev => ev.run t m := by
  refine .ask (k := fun r _ => r) hasks Reaction.pass_fair (fun _ e m₁ e' m₂ hu => ?_) ?_
  · cases hu
    rfl
  · intro r hr hgoes
    cases r with
    | ok a m₁ => exact .answer ⟨⟨a, m₁, rfl⟩, hr, rfl⟩
    | error e m₁ => cases hgoes e m₁ rfl

/-- A part of a task that goes about it in the manner of the task, and leaves the frame on its
line. -/
def Task.Steadily (t : Task) (host : Host) (m₀ : Machine) {α : Type} (x : Evaluator → Eval α) :
    Prop :=
  ∀ h m, m₀.Steady m → (t.manner host m₀).Plan m₀.EndsSteady h m.stock fun ev => x ev m

namespace Task.Steadily

variable {t : Task} {host : Host} {m₀ : Machine} {α β : Type} {scope : Ref .scope}

lemma own {x : Eval α} (hx : x.Apart) : t.Steadily host m₀ fun _ => x := by
  intro h m hm
  rw [← hx.stock m]
  exact .answer ⟨hm.trans (hx.steady m), fun e m₁ he => hx.failing he⟩

lemma bind {x : Evaluator → Eval α} {g : Evaluator → α → Eval β} (hx : t.Steadily host m₀ x)
    (hg : ∀ a, t.Steadily host m₀ fun ev => g ev a) :
    t.Steadily host m₀ fun ev => x ev >>= g ev := by
  intro h m hm
  exact (hx h m hm).bind (fun h' a m₁ hr => hg a h' m₁ hr.1) fun h' e m₁ hr => hr.exit

/-- Something of its own comes first. -/
lemma ownThen {x : Eval α} {g : Evaluator → α → Eval β} (hx : x.Apart)
    (hg : ∀ a, t.Steadily host m₀ fun ev => g ev a) : t.Steadily host m₀ fun ev => x >>= g ev :=
  bind (.own hx) hg

lemma thenOwn {x : Evaluator → Eval α} {g : α → Eval β} (hx : t.Steadily host m₀ x)
    (hg : ∀ a, (g a).Apart) : t.Steadily host m₀ fun ev => x ev >>= g :=
  bind hx fun a => .own (hg a)

lemma expr (hscope : t.PlainIn scope) (e : Expr) :
    t.Steadily host m₀ fun ev => ev.expr scope e := by
  intro h m hm
  refine (Manner.Plan.pass (t := .expr scope e) (Part.expr hscope hm)).imp ?_
  rintro h r ⟨⟨v, m₁, rfl⟩, hkeeps, _⟩
  exact ⟨hm.trans hkeeps.steady, fun e m₂ he => by cases he⟩

lemma walk (hplain : t.isMixed = false) (v : Value) : t.Steadily host m₀ fun ev => ev.walk v := by
  intro h m hm
  refine (Manner.Plan.pass (t := .walk v) (Part.walk hplain hm)).imp ?_
  rintro h r ⟨⟨v, m₁, rfl⟩, hkeeps, _⟩
  exact ⟨hm.trans hkeeps.steady, fun e m₂ he => by cases he⟩

lemma exprs (hscope : t.PlainIn scope) (es : List Expr) :
    t.Steadily host m₀ fun ev => ev.exprs scope es := by
  induction es with
  | nil => exact .own (.pure [])
  | cons e rest ih => exact bind (expr hscope e) fun v => thenOwn ih fun vs => .pure (v :: vs)

lemma expr? (hscope : t.PlainIn scope) (e : Option Expr) :
    t.Steadily host m₀ fun ev => ev.expr? scope e := by
  cases e with
  | none => exact .own (.pure none)
  | some e => exact thenOwn (expr hscope e) fun v => .pure (some v)

end Task.Steadily

/-! ### Statements one after the other -/

namespace Machine

variable {m m' : Machine} {scope : Ref .scope}

/-- The state when it has been said on which line the innermost frame is. -/
def atLine (m : Machine) (line : Int) : Machine :=
  if line = 0 then m else { m with stack := m.stack.setLine line }

lemma stock_atLine (m : Machine) (line : Int) : (m.atLine line).stock = m.stock := by
  unfold atLine
  split <;> rfl

lemma onward_atLine (m : Machine) (line : Int) : m.Onward (m.atLine line) := by
  unfold atLine
  split
  · exact .refl m
  · exact ⟨m.stack.sameButLine_setLine line, rfl, rfl, .refl _⟩

lemma on_atLine (m : Machine) (line : Int) : (m.atLine line).stack.On line := by
  intro hline f hf
  unfold atLine at hf
  rw [if_neg hline] at hf
  unfold CallStack.setLine at hf
  split at hf
  · next h =>
    rw [CallStack.top?, h] at hf
    cases hf
  · cases hf
    rfl

/-- The state when there is a new scope inside of another. -/
def nesting (m : Machine) (scope : Ref .scope) : Machine :=
  { m with world.store.scopes := m.world.store.scopes.push ⟨.empty, some scope⟩ }

lemma steady_nesting (m : Machine) (scope : Ref .scope) : m.Steady (m.nesting scope) :=
  ⟨rfl, rfl, rfl, (Store.SameCode.pushScope m.world.store _).extends'⟩

lemma around_nesting (m : Machine) (scope : Ref .scope) :
    (m.nesting scope).world.store.Around ⟨m.world.store.scopes.size⟩ scope := by
  constructor
  · show m.world.store.scopes.size < (m.world.store.scopes.push _).size
    rw [Arena.size_push]
    exact Nat.lt_succ_self _
  · exact congrArg Scope.outer (Arena.get_push_size ..)

end Machine

/-- Statements of a body are asked for, in one scope and one frame. -/
def Manner.reciting (b : Machine) (own : Ref .scope) (body : List Stmt) : Manner where
  Asks _ t m u :=
    (∃ s ∈ body, t = .stmt own s ∧ b.Onward m ∧ m.stack.On s.line) ∧ u = .noting fun _ => true
  Alters _ _ _ := False

/-- The statements of a body have been executed to its end. -/
structure Machine.Recites (b : Machine) (own : Ref .scope) (body : List Stmt) (h : List Query)
    (r : Outcome Value) : Prop where
  answers : ∃ v m, r = .ok v m
  onward : b.Onward r.state
  still : body = [] → b.Steady r.state
  passed : body ≠ [] → ∃ s ∈ body, ∃ m, Asked h (.stmt own s) m

namespace Manner.Plan

variable {b m : Machine} {own scope : Ref .scope} {body : List Stmt} {h : List Query}

lemma execute {s : Stmt} (hs : s ∈ body) (hm : b.Onward m) :
    (Manner.reciting b own body).Plan
      (fun h r => (∃ v m₁, r = .ok v m₁) ∧ b.Onward r.state ∧ ∃ m₁, Asked h (.stmt own s) m₁)
      h m.stock fun ev => ev.execute own s m := by
  have hm' : b.Onward (m.atLine s.line) := hm.trans (m.onward_atLine s.line)
  rw [← m.stock_atLine s.line]
  refine .ask (t := .stmt own s) (k := fun r _ => Eval.recording (fun _ => r) (m.atLine s.line))
    ⟨⟨s, hs, rfl, hm', m.on_atLine s.line⟩, rfl⟩ (Reaction.noting_fair fun _ _ => rfl) ?_ ?_
  · intro _ e m₁ e' m₂ hu
    cases hu
    cases e <;> rfl
  · intro r hr hgoes
    cases r with
    | ok v m₁ =>
      exact .answer ⟨⟨v, m₁, rfl⟩, hm'.trans hr, m.atLine s.line, _, List.mem_cons_self⟩
    | error e m₁ => cases hgoes e m₁ rfl

lemma sequence_of_passed {rest : List Stmt} (hrest : ∀ s ∈ rest, s ∈ body) (hm : b.Onward m)
    (hpassed : rest = [] → ∃ s ∈ body, ∃ m, Asked h (.stmt own s) m) (last : Value) :
    (Manner.reciting b own body).Plan (b.Recites own body) h m.stock fun ev =>
      ev.sequence own last rest m := by
  induction rest generalizing h m last with
  | nil =>
    obtain ⟨s, hs, hquery⟩ := hpassed rfl
    refine .answer (r := .ok last m) ⟨⟨last, m, rfl⟩, hm, fun hnil => ?_, fun _ => ⟨s, hs, hquery⟩⟩
    exact absurd (hnil ▸ hs) List.not_mem_nil
  | cons s rest ih =>
    obtain ⟨hs, hrest⟩ := List.forall_mem_cons.mp hrest
    refine (execute hs hm).bind (fun h' v m₁ hr => ?_) fun h' e m₁ hr => ?_
    · exact ih hrest hr.2.1 (fun _ => ⟨s, hs, hr.2.2⟩) v
    · obtain ⟨⟨_, _, he⟩, _⟩ := hr
      cases he

lemma sequence (b : Machine) (own : Ref .scope) (body : List Stmt) (last : Value) :
    (Manner.reciting b own body).Plan (b.Recites own body) h b.stock fun ev =>
      ev.sequence own last body b := by
  by_cases hnil : body = []
  · subst hnil
    exact .answer (r := .ok last b)
      ⟨⟨last, b, rfl⟩, .refl b, fun _ => .refl b, fun hne => absurd rfl hne⟩
  · exact sequence_of_passed (fun _ hs => hs) (.refl b) (fun h => absurd h hnil) last

lemma block (m : Machine) (scope : Ref .scope) (body : List Stmt) :
    (Manner.reciting (m.nesting scope) ⟨m.world.store.scopes.size⟩ body).Plan
      ((m.nesting scope).Recites ⟨m.world.store.scopes.size⟩ body) h m.stock fun ev =>
      ev.block scope body m :=
  sequence (m.nesting scope) ⟨m.world.store.scopes.size⟩ body .null

end Manner.Plan

/-! ### Calls -/

namespace Reaction

lemma straying_final (e : Exit) (m : Machine) (he : e.Final) : (straying e m).1 = e := by
  cases e with
  | breaking => exact he.elim
  | continuing => exact he.elim
  | _ => rfl

lemma straying_world (e : Exit) (m : Machine) : (straying e m).2.world = m.world := by
  cases e <;> rfl

lemma called_fair : called.Fair :=
  ((noting_fair fun e he => by cases e <;> trivial).after straying_final straying_world).after
    (fun _ _ _ => rfl) fun _ _ => rfl

lemma loaded_fair (module : Option (Ref .module)) : (loaded module).Fair :=
  called_fair.after (fun _ _ _ => rfl) fun _ _ => rfl

end Reaction

lemma CallStack.SameButLine.frames_of_push {s t : CallStack} {path function : String}
    (h : (s.push path function).SameButLine t) :
    ∃ line, t.frames = ⟨path, function, line⟩ :: s.frames := by
  have hpop : t.frames.tail = s.frames := congrArg CallStack.frames h.pop_of_push
  have horigins := h.origins
  cases ht : t.frames with
  | nil =>
    rw [ht] at horigins
    cases horigins
  | cons f rest =>
    rw [ht] at horigins hpop
    obtain ⟨line, rfl⟩ : ∃ line, f = ⟨path, function, line⟩ := by
      obtain ⟨path', function', line⟩ := f
      obtain ⟨hpath, hfunction⟩ := Prod.mk.inj (List.cons.inj horigins).1
      cases hpath
      cases hfunction
      exact ⟨line, rfl⟩
    exact ⟨line, congrArg _ hpop⟩

/-- The frame that was put on is taken off again. -/
lemma Machine.Onward.steady_pop {m m' : Machine} {path function : String}
    (h : { m with stack := m.stack.push path function }.Onward m') :
    m.Steady { m' with stack := m'.stack.pop } :=
  ⟨h.stack.pop_of_push, h.module, h.report, h.store⟩

namespace Task.Steadily

variable {t : Task} {host : Host} {m₀ m m' : Machine} {scope : Ref .scope}

/-- The body of a function, in the scope of the parameters. -/
lemma callBody (hplain : t.isMixed = false) (hm : m₀.Steady m) (hm' : m.Steady m')
    (f : Ref .function) (hscope : m'.world.store.Around scope (m.world.store.function f).scope)
    (hfresh : m.world.store.scopes.size ≤ scope.index) (h : List Query) :
    (t.manner host m₀).Plan m₀.EndsSteady h m'.stock fun ev => Eval.takingReturn
      (Eval.withFrame (m.world.store.function f).path (m.world.store.function f).title
        (Eval.outsideLoops do
          let _ ← ev.block scope (m.world.store.function f).body
          pure .null)) m' := by
  let code := m.world.store.function f
  let inside : Machine := { m' with stack := m'.stack.push code.path code.title }
  have hnest := inside.steady_nesting scope
  have hpop {m₁ : Machine} (h : (inside.nesting scope).Onward m₁) :
      m₀.Steady { m₁ with stack := m₁.stack.pop } :=
    hm.trans (hm'.trans (hnest.onward.trans h).steady_pop)
  refine (Manner.Plan.block inside scope code.body).around (g := fun r => Eval.takingReturn
    (Eval.withFrame code.path code.title (Eval.outsideLoops do
      let _ ← (fun _ => r)
      pure .null)) m') (fun _ _ _ h => h.elim) ?_ ?_
  · rintro h _ m₁ _ ⟨⟨s, hs, rfl, honward, hline⟩, rfl⟩
    refine ⟨.called, .call hplain hm ⟨hs, ?_, hline, ?_, ?_, ?_, hm'.store.scopes, ?_⟩,
      Reaction.called_fair, ?_, ?_⟩
    · rw [← hm'.stack]
      exact (hnest.onward.trans honward).stack.frames_of_push
    · exact honward.module.trans hm'.module
    · exact honward.report.trans hm'.report
    · exact hm'.store.trans (hnest.store.trans honward.store)
    · refine honward.store.enters (.head hm'.store.scopes (inside.around_nesting scope) ?_)
      exact hnest.store.enters (.single hfresh hscope)
    · intro e m₂ e' m₃ hu
      refine ⟨e, m₂.noting e, rfl, ?_⟩
      cases e <;> cases hu <;> rfl
    · intro e m₂ e₁ m₃ hkeeps hnone hu
      cases e with
      | returning v =>
        cases hu
        exact ⟨⟨hpop (honward.trans hkeeps), fun e m₄ he => by cases he⟩, rfl⟩
      | _ => cases hnone
  · rintro h r ⟨⟨v, m₁, rfl⟩, honward, _, _⟩
    exact ⟨⟨hpop honward, fun e m₂ he => by cases he⟩, rfl⟩

lemma callFunction (hplain : t.isMixed = false) (f : Ref .function) (args : List Value)
    (bindings : List (String × Value)) :
    t.Steadily host m₀ fun ev => ev.callFunction f args bindings := by
  intro h m hm
  let code := m.world.store.function f
  show (t.manner host m₀).Plan m₀.EndsSteady h m.stock fun ev =>
    (if args.length ≠ code.params.length then _ else _ : Eval Value) m
  split
  · exact own (.fault _) h m hm
  · have hparams := Eval.Apart.onStore (StoreM.bindParameters_sameCode
      ⟨m.world.store.scopes.size⟩ (bindings ++ code.params.zip args))
    show (t.manner host m₀).Plan m₀.EndsSteady h (m.nesting code.scope).stock fun ev =>
      (Eval.onStore _ >>= fun _ => _) (m.nesting code.scope)
    refine .own_bind (fun a m₁ hok => ?_) fun e m₁ herror => ?_
    all_goals
      have hsteady := hparams.steady (m.nesting code.scope)
      have hstock := hparams.stock (m.nesting code.scope)
    · rw [hok] at hsteady hstock
      refine ⟨hstock, callBody hplain hm ((m.steady_nesting code.scope).trans hsteady) f ?_
        (Nat.le_refl _) h⟩
      exact hsteady.store.around (m.around_nesting code.scope)
    · have hfailing := hparams.failing herror
      rw [herror] at hsteady hstock
      refine ⟨hstock, (hm.trans (m.steady_nesting code.scope)).trans hsteady, fun e' m₂ he => ?_⟩
      cases he
      exact hfailing

lemma callMethod (hplain : t.isMixed = false) (receiver : Receiver) (f : Ref .function)
    (args : List Value) :
    t.Steadily host m₀ fun ev => ev.callMethod receiver f args := by
  exact ownThen (.onStore (StoreM.receiverBindings_sameCode receiver f)) fun bindings =>
    callFunction hplain f args bindings

lemma construct (hplain : t.isMixed = false) (cls : Ref .cls) (args : List Value) :
    t.Steadily host m₀ fun ev => ev.construct cls args := by
  refine ownThen (.onStore (StoreM.newInstance_sameCode cls)) fun this => ownThen .store fun s => ?_
  have finish : (do
      Eval.onStore (StoreM.finishInstance this)
      pure (Value.inst this) : Eval Value).Apart :=
    .bind (.onStore (StoreM.finishInstance_sameCode this)) fun _ => .pure _
  dsimp only
  split
  · exact own (.fault _)
  · cases s.findMethod? cls "__init__" with
    | none => exact own finish
    | some f => exact bind (callMethod hplain (.inst this) f args) fun _ => own finish

lemma callBound (hplain : t.isMixed = false) (r : Ref .bound) (args : List Value) :
    t.Steadily host m₀ fun ev => ev.callBound r args := by
  refine ownThen .store fun s => ?_
  cases s.bound r with
  | text m this => exact own (.onContents (StoreM.textMethod_call_sameButContents m this args))
  | list m this => exact own (.onContents (StoreM.listMethod_call_sameButContents m this args))
  | method this f => exact callMethod hplain (.inst this) f args
  | classMethod cls f => exact callMethod hplain (.cls cls) f args
  | super _ _ => exact own (.fault _)

lemma apply (hplain : t.isMixed = false) (callee : Value) (args : List Value) :
    t.Steadily host m₀ fun ev => ev.apply callee args := by
  cases callee with
  | function f => exact callFunction hplain f args []
  | bound r => exact callBound hplain r args
  | cls r => exact construct hplain r args
  | builtin b => exact own (.builtin b args)
  | _ => exact ownThen .store fun s => own (.fault _)

lemma iterate (hplain : t.isMixed = false) (v : Value) :
    t.Steadily host m₀ fun ev => ev.iterate v := by
  refine ownThen .store fun s => ?_
  cases s.iteration? v with
  | some walk => exact own (.pure walk)
  | none =>
    cases v with
    | inst r =>
      dsimp only
      cases s.findMethod? (s.inst r).cls "__iter__" with
      | some f => exact bind (callMethod hplain (.inst r) f []) (walk hplain)
      | none => exact own (.fault _)
    | _ => exact own (.fault _)

end Task.Steadily

/-! ### Imports -/

lemma Host.failing_of_read {host : Host} {path : String} {e : Exit}
    (h : (host.read path).2 = .error e) : e.Failing := by
  unfold Host.read at h
  split at h
  · cases h
    trivial
  · cases h
    trivial
  · dsimp only at h
    split at h <;> cases h <;> trivial

lemma Host.failing_of_find {host : Host} {cache : ModuleCache} {name : String} {e : Exit}
    (h : host.find cache name = .nowhere e) : e.Failing := by
  unfold Host.find at h
  split at h
  · cases h
    trivial
  · split at h
    · split at h <;> cases h
    · cases h
      trivial

namespace Task.Steadily

variable {t : Task} {host : Host} {m₀ m : Machine} {scope : Ref .scope} {e : Expr}

/-- The text of a module that is new. -/
lemma moduleText (ht : t = .expr scope (.load e)) (hm : m₀.Steady m) {name path : String}
    {p : Program} (hfind : host.find m.world.cache name = .file path)
    (hread : (host.read path).2 = .ok p) :
    (t.manner host m₀).Plan m₀.EndsSteady [⟨.expr scope e, m₀, .ok (.str name) m⟩] m.stock fun ev =>
      ev.moduleText ⟨m.world.store.modules.size⟩ path ⟨m.world.store.scopes.size⟩ p
        ((m.reading host path).addModule path) := by
  let r : Ref .module := ⟨m.world.store.modules.size⟩
  let made := (m.reading host path).addModule path
  have hmade : m.Steady made := ⟨rfl, rfl, rfl, (StoreM.newModuleAt_sameCode path _).extends'⟩
  have hback {m₁ : Machine} (h : (m.atText host path).Onward m₁) :
      m₀.Steady { m₁ with stack := m₁.stack.pop, module := m.module } :=
    hm.trans (hmade.trans ⟨h.stack.pop_of_push, rfl, h.report, h.store⟩)
  refine .alter (Alteration.module ht rfl hm hfind hread) ?_
  have htext := Manner.Plan.sequence (h := [⟨.expr scope e, m₀, .ok (.str name) m⟩])
    (m.atText host path) ⟨m.world.store.scopes.size⟩ p.body .null
  refine (htext.since List.suffix_rfl).around (g := fun r' => (do
    let _ ← Eval.withModule r (Eval.withFrame path "<module>" (Eval.takingReturn
      (Eval.outsideLoops fun _ => r')))
    pure (.module r) : Eval Value) made) (fun _ _ _ h => h.2.elim) ?_ ?_
  · rintro h _ m₁ _ ⟨hh, ⟨s, hs, rfl, honward, hline⟩, rfl⟩
    refine ⟨.loaded m₀.module, .text ht hh hm ⟨hfind, ⟨p, hread, hs⟩, honward, hline⟩,
      Reaction.loaded_fair _, ?_, ?_⟩
    · intro e m₂ e' m₃ hu
      refine ⟨e, m₂.noting e, rfl, ?_⟩
      rw [← hm.module] at hu
      cases e <;> cases hu <;> rfl
    · intro e m₂ e₁ m₃ hkeeps hnone hu
      cases e with
      | returning v =>
        cases hu
        exact ⟨⟨hback (honward.trans hkeeps), fun e m₄ he => by cases he⟩, rfl⟩
      | _ => cases hnone
  · rintro h r ⟨⟨v, m₁, rfl⟩, honward, _, _⟩
    exact ⟨⟨hback honward, fun e m₂ he => by cases he⟩, rfl⟩

/-- What is imported, when its name is known. -/
lemma load (ht : t = .expr scope (.load e)) (hm : m₀.Steady m) (name : String) :
    (t.manner host m₀).Plan m₀.EndsSteady [⟨.expr scope e, m₀, .ok (.str name) m⟩] m.stock fun ev =>
      Evaluator.load host ev name m := by
  cases hfind : host.find m.world.cache name with
  | nowhere e =>
    have heq (ev : Evaluator) : Evaluator.load host ev name m = .error e m := by
      rw [Evaluator.load_eq, hfind]
    simp only [heq]
    exact .answer (r := .error e m) ⟨hm, fun e' m₁ he => by
      cases he
      exact Host.failing_of_find hfind⟩
  | cached r =>
    have heq (ev : Evaluator) : Evaluator.load host ev name m = .ok (.module r) m := by
      rw [Evaluator.load_eq, hfind]
    simp only [heq]
    exact own (.pure (Value.module r)) _ m hm
  | file path =>
    cases hread : (host.read path).2 with
    | error e =>
      have heq (ev : Evaluator) :
          Evaluator.load host ev name m = .error e (m.reading host path) := by
        rw [Evaluator.load_eq, hfind]
        dsimp only
        rw [hread]
      simp only [heq]
      refine .answer (r := .error e (m.reading host path)) ⟨hm.trans ?_, fun e' m₁ he => ?_⟩
      · exact ⟨rfl, rfl, rfl, .refl _⟩
      · cases he
        exact Host.failing_of_read hread
    | ok p =>
      simp only [Evaluator.load_of_file _ hfind hread]
      exact moduleText ht hm hfind hread

end Task.Steadily

/-! ### Expressions -/

/-- A function is made. -/
lemma Manner.Plan.closure {M : Manner} {m : Machine} {scope : Ref .scope}
    {owner : Option (Ref .cls)} {f : FunctionLiteral} {h : List Query} (halter : M.Alters h m.stock
      (m.stock.adding ⟨f.name, f.params, f.body, scope, m.modulePath, owner⟩)) :
    M.Plan (fun _ r => ∃ a m₁, r = .ok a m₁ ∧ m.Steady m₁) h m.stock fun _ =>
      Evaluator.closure scope owner f m := by
  refine .alter halter ?_
  refine .answer (r := Evaluator.closure scope owner f m) ⟨_, _, rfl, rfl, rfl, rfl, ?_⟩
  exact .pushFunction ..

namespace Task.Steadily

variable {t : Task} {host : Host} {m₀ : Machine} {scope : Ref .scope}

lemma name (scope : Ref .scope) (x : String) :
    t.Steadily host m₀ fun _ => Evaluator.name scope x := by
  refine ownThen .store fun s => ?_
  cases s.lookup? scope x with
  | some v => exact own (.pure v)
  | none =>
    dsimp only
    cases rootName? x with
    | some v => exact own (.pure v)
    | none => exact own (.fault _)

lemma closure (hscope : t.PlainIn scope) (owner : Option (Ref .cls)) {f : FunctionLiteral}
    (hf : f ∈ t.literals) :
    t.Steadily host m₀ fun _ => Evaluator.closure scope owner f := by
  intro h m hm
  refine (Manner.Plan.closure (Alteration.function owner hf hscope.scope hm.onward)).imp ?_
  rintro h r ⟨a, m₁, rfl, hm₁⟩
  exact ⟨hm.trans hm₁, fun e m₂ he => by cases he⟩

lemma entries (hscope : t.PlainIn scope) (acc : Dict) (pairs : List (Expr × Expr)) :
    t.Steadily host m₀ fun ev => ev.entries scope acc pairs := by
  induction pairs generalizing acc with
  | nil => exact own (.pure acc)
  | cons pair rest ih =>
    refine bind (expr hscope pair.1) fun key => ownThen (.orCrash _) fun _ => ?_
    cases key.hashKey? with
    | none => exact ownThen .store fun s => own (.fault _)
    | some hash => exact bind (expr hscope pair.2) fun value => ih _

lemma shortCircuit (hscope : t.PlainIn scope) (op : ShortCircuit) (lhs rhs : Expr) :
    t.Steadily host m₀ fun ev => ev.shortCircuit scope op lhs rhs := by
  refine bind (expr hscope lhs) fun left => ownThen .store fun s => ?_
  dsimp only
  split
  · exact own (.pure _)
  · exact thenOwn (expr hscope rhs) fun right => .bind .store fun s => .pure _

/-- Expressions other than imports. -/
lemma evalExpr (e : Expr) (ht : t = .expr scope e) (hplain : t.isMixed = false) :
    t.Steadily host m₀ fun ev => ev.evalExpr (Evaluator.load host) scope e := by
  have hscope : t.PlainIn scope := ⟨hplain, by rw [ht]; rfl⟩
  cases e with
  | literal l => exact own (.orCrash _)
  | name x => exact name scope x
  | list es =>
    refine thenOwn (exprs hscope es) fun vs => ?_
    exact .bind (.onContents (StoreM.newList_sameButContents vs)) fun _ => .pure _
  | dict pairs =>
    refine thenOwn (entries hscope .empty pairs) fun d => ?_
    exact .bind (.onContents (StoreM.newDict_sameButContents d)) fun _ => .pure _
  | function f =>
    have hf : f ∈ t.literals := ht ▸ List.mem_singleton_self f
    exact thenOwn (closure hscope none hf) fun _ => .pure _
  | unary op e => exact thenOwn (expr hscope e) fun v => .askStore _
  | binary op lhs rhs =>
    exact bind (expr hscope lhs) fun _ => thenOwn (expr hscope rhs) fun _ => .askStore _
  | shortCircuit op lhs rhs => exact shortCircuit hscope op lhs rhs
  | call callee args =>
    exact bind (expr hscope callee) fun f => bind (exprs hscope args) fun vs => apply hplain f vs
  | item subject index =>
    refine bind (expr hscope subject) fun _ => thenOwn (expr hscope index) fun _ => ?_
    exact .bind (.orCrash _) fun _ => .askStore _
  | attr subject x =>
    refine thenOwn (expr hscope subject) fun v => ?_
    exact .onContents (StoreM.getAttribute_sameButContents v x)
  | load path =>
    rw [ht] at hplain
    cases hplain

end Task.Steadily

/-- **Expressions leave the frame on its line**, and so do their parts. -/
theorem Expr.plan (host : Host) (scope : Ref .scope) (e : Expr) (m : Machine) :
    ((Task.expr scope e).manner host m).Plan m.EndsSteady [] m.stock fun ev =>
      ev.evalExpr (Evaluator.load host) scope e m := by
  by_cases hplain : (Task.expr scope e).isMixed = false
  · exact Task.Steadily.evalExpr e rfl hplain [] m (.refl m)
  · cases e with
    | load path =>
      refine (Manner.Plan.pass (t := .expr scope path) (Part.name rfl rfl)).bind
        (fun h v m₁ hr => ?_) fun h e m₁ hr => ?_
      · obtain rfl := hr.2.2
        cases v with
        | str t =>
          cases ht : t.encode with
          | error c =>
            show Manner.Plan _ _ _ _ fun _ => (Eval.orCrash t.encode >>= fun _ => _) m₁
            rw [ht]
            exact Task.Steadily.own (.throw (e := .crash c) trivial) _ m₁ hr.2.1.steady
          | ok name =>
            obtain rfl := Text.eq_of_encode ht
            show Manner.Plan _ _ _ _ fun _ =>
              (Eval.orCrash (Text.encode name) >>= fun _ => _) m₁
            rw [ht]
            exact Task.Steadily.load rfl hr.2.1.steady name
        | _ => exact Task.Steadily.ownThen .store (fun s => .own (.fault _)) _ m₁ hr.2.1.steady
      · obtain ⟨⟨_, _, heq⟩, _⟩ := hr
        cases heq
    | _ => exact absurd rfl hplain

end Wei
