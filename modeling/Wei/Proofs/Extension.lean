import Wei.Proofs.Course

/-!
Operations on the store extend it. A scope stays inside of the one in which it was made, a function
stays what it is, and a module stays where its file is and keeps its scope. Functions are made by
one operation only; all others leave them as they are.
-/

namespace Wei

/-- Scopes lie where they lay, functions are what they were, and modules are where they were. -/
structure Store.Extends (s s' : Store) : Prop where
  scopes : s.scopes.size ≤ s'.scopes.size
  outer {r : Ref .scope} : r.index < s.scopes.size → (s'.scope r).outer = (s.scope r).outer
  functions : s.functions.size ≤ s'.functions.size
  function {f : Ref .function} : f.index < s.functions.size → s'.function f = s.function f
  modules : s.modules.size ≤ s'.modules.size
  modulePath {r : Ref .module} : r.index < s.modules.size → (s'.module r).path = (s.module r).path
  moduleScope {r : Ref .module} :
    r.index < s.modules.size → (s'.module r).scope = (s.module r).scope

namespace Store.Extends

variable {s s' s'' : Store}

@[refl] lemma refl (s : Store) : s.Extends s where
  scopes := Nat.le_refl _
  outer _ := rfl
  functions := Nat.le_refl _
  function _ := rfl
  modules := Nat.le_refl _
  modulePath _ := rfl
  moduleScope _ := rfl

lemma trans (h : s.Extends s') (h' : s'.Extends s'') : s.Extends s'' where
  scopes := Nat.le_trans h.scopes h'.scopes
  outer hr := (h'.outer (Nat.lt_of_lt_of_le hr h.scopes)).trans (h.outer hr)
  functions := Nat.le_trans h.functions h'.functions
  function hf := (h'.function (Nat.lt_of_lt_of_le hf h.functions)).trans (h.function hf)
  modules := Nat.le_trans h.modules h'.modules
  modulePath hr := (h'.modulePath (Nat.lt_of_lt_of_le hr h.modules)).trans (h.modulePath hr)
  moduleScope hr := (h'.moduleScope (Nat.lt_of_lt_of_le hr h.modules)).trans (h.moduleScope hr)

instance : Std.Refl Store.Extends := ⟨refl⟩

instance : IsTrans Store Store.Extends := ⟨fun _ _ _ => trans⟩

end Store.Extends

/-- The store has been extended, and not by functions. -/
structure Store.SameCode (s s' : Store) : Prop where
  extends' : s.Extends s'
  functions : s'.functions = s.functions

namespace Store.SameCode

variable {s s' s'' : Store}

instance : Std.Refl SameCode := ⟨fun s => ⟨.refl s, rfl⟩⟩

instance : IsTrans Store SameCode :=
  ⟨fun _ _ _ h h' => ⟨h.extends'.trans h'.extends', h'.functions.trans h.functions⟩⟩

/-- Scopes, functions and modules are the same. -/
lemma of_eq (hs : s'.scopes = s.scopes) (hf : s'.functions = s.functions)
    (hm : s'.modules = s.modules) : s.SameCode s' := by
  have size {α : Type} {a b : Arena α} (h : b = a) : a.size ≤ b.size :=
    Nat.le_of_eq (congrArg Arena.size h.symm)
  refine ⟨⟨size hs, fun _ => ?_, size hf, fun _ => ?_, size hm, fun _ => ?_, fun _ => ?_⟩, hf⟩
  · unfold Store.scope
    rw [hs]
  · unfold Store.function
    rw [hf]
  all_goals
    unfold Store.module
    rw [hm]

lemma of_sameButContents (h : s.SameButContents s') : s.SameCode s' :=
  of_eq h.scopes h.functions h.modules

/-- A scope is written to. -/
lemma writeBinding (s : Store) (r : Ref .scope) (x : String) (b : Binding) :
    s.SameCode (s.writeBinding r x b) := by
  refine ⟨⟨Arena.size_le_set .., fun {q} _ => ?_, Nat.le_refl _, fun _ => rfl, Nat.le_refl _,
    fun _ => rfl, fun _ => rfl⟩, rfl⟩
  unfold Store.writeBinding
  rw [Store.scope_setScope]
  split
  · next hq => rw [hq]
  · rfl

/-- A scope is made. -/
lemma pushScope (s : Store) (x : Scope) : s.SameCode { s with scopes := s.scopes.push x } := by
  refine ⟨⟨?_, fun hr => ?_, Nat.le_refl _, fun _ => rfl, Nat.le_refl _, fun _ => rfl,
    fun _ => rfl⟩, rfl⟩
  · rw [Arena.size_push]
    exact Nat.le_succ _
  · exact congrArg Scope.outer (Arena.get_push_of_ne _ _ (Nat.ne_of_lt hr))

/-- A module is made. -/
lemma pushModule (s : Store) (x : Module) : s.SameCode { s with modules := s.modules.push x } := by
  refine ⟨⟨Nat.le_refl _, fun _ => rfl, Nat.le_refl _, fun _ => rfl, ?_, fun hr => ?_,
    fun hr => ?_⟩, rfl⟩
  · rw [Arena.size_push]
    exact Nat.le_succ _
  · exact congrArg Module.path (Arena.get_push_of_ne _ _ (Nat.ne_of_lt hr))
  · exact congrArg Module.scope (Arena.get_push_of_ne _ _ (Nat.ne_of_lt hr))

/-- What a module exports is written. -/
lemma setExports (s : Store) (r : Ref .module) (names : List String) :
    s.SameCode (s.setModule r { s.module r with exports := names }) := by
  have hcell (q : Ref .module) : (s.setModule r { s.module r with exports := names }).module q =
      if r.index = q.index then { s.module r with exports := names } else s.module q :=
    Arena.get_set ..
  refine ⟨⟨Nat.le_refl _, fun _ => rfl, Nat.le_refl _, fun _ => rfl, Arena.size_le_set ..,
    fun {q} _ => ?_, fun {q} _ => ?_⟩, rfl⟩
  all_goals
    rw [hcell]
    split
    · next hq => rw [Ref.index_inj.mp hq]
    · rfl

end Store.SameCode

/-- A function is made. -/
lemma Store.Extends.pushFunction (s : Store) (c : Closure) :
    s.Extends { s with functions := s.functions.push c } := by
  refine ⟨Nat.le_refl _, fun _ => rfl, ?_, fun hf => ?_, Nat.le_refl _, fun _ => rfl, fun _ => rfl⟩
  · rw [Arena.size_push]
    exact Nat.le_succ _
  · exact Arena.get_push_of_ne _ _ (Nat.ne_of_lt hf)

namespace StoreM

open EStateM Store

lemma newFunction_extends (c : Closure) : (newFunction c).Within Store.Extends :=
  fun s => .pushFunction s c

/-! ### Scopes -/

lemma childScope_sameCode (r : Ref .scope) : (childScope r).Within SameCode :=
  fun s => .pushScope s ⟨.empty, some r⟩

lemma declare_sameCode (r : Ref .scope) (x : String) (v : Value) (constant : Bool) :
    (declare r x v constant).Within SameCode := by
  intro s
  unfold EStateM.after declare
  by_cases h : s.holds r x = true
  · rw [if_pos h]
    exact refl s
  · rw [if_neg h]
    exact .writeBinding ..

lemma declareAll_sameCode (r : Ref .scope) (constant : Bool) (bindings : List (String × Value)) :
    (declareAll r constant bindings).Within SameCode := by
  induction bindings with
  | nil => exact .pure ()
  | cons b rest ih => exact .bind (declare_sameCode r b.1 b.2 constant) fun _ => ih

lemma bindParameters_sameCode (r : Ref .scope) (bindings : List (String × Value)) :
    (bindParameters r bindings).Within SameCode := by
  induction bindings with
  | nil => exact .pure ()
  | cons b rest ih => exact .bind (fun s => .writeBinding s r b.1 _) fun _ => ih

lemma assign_sameCode (r : Ref .scope) (x : String) (v : Value) :
    (assign r x v).Within SameCode := by
  intro s
  unfold EStateM.after assign
  cases s.holder? r x with
  | none => exact refl s
  | some q =>
    by_cases hc : s.isConstant q x = true
    · simp only [if_pos hc]
      exact refl s
    · simp only [if_neg hc]
      exact .writeBinding ..

/-! ### Classes and instances -/

lemma newClass_sameCode (c : Class) : (newClass c).Within SameCode := fun _ => .of_eq rfl rfl rfl

/-- An operation that refuses or writes to a class. -/
lemma sameCode_of_guard {c : Prop} [Decidable c] {f : Fault} {s s' : Store} {x : StoreM Unit}
    (hx : x s = if c then .error f s else .ok () s') (h : s.SameCode s') :
    s.SameCode (x.after s) := by
  by_cases hc : c
  · rw [if_pos hc] at hx
    rw [after_of_error hx]
    exact refl s
  · rw [if_neg hc] at hx
    rw [after_of_ok hx]
    exact h

lemma addMember_sameCode (c : Ref .cls) (x : String) (default : Option Value) (constant : Bool) :
    (addMember c x default constant).Within SameCode :=
  fun _ => sameCode_of_guard rfl (.of_eq rfl rfl rfl)

lemma addClassMember_sameCode (c : Ref .cls) (x : String) (v : Value) (constant : Bool) :
    (addClassMember c x v constant).Within SameCode :=
  fun _ => sameCode_of_guard rfl (.of_eq rfl rfl rfl)

lemma addMethod_sameCode (c : Ref .cls) (x : String) (f : Ref .function) :
    (addMethod c x f).Within SameCode :=
  fun _ => sameCode_of_guard rfl (.of_eq rfl rfl rfl)

lemma addClassMethod_sameCode (c : Ref .cls) (x : String) (f : Ref .function) :
    (addClassMethod c x f).Within SameCode :=
  fun _ => sameCode_of_guard rfl (.of_eq rfl rfl rfl)

lemma newInstance_sameCode (c : Ref .cls) : (newInstance c).Within SameCode :=
  fun _ => .of_eq rfl rfl rfl

lemma finishInstance_sameCode (r : Ref .inst) : (finishInstance r).Within SameCode := by
  intro s
  unfold EStateM.after finishInstance
  dsimp only
  cases (s.inst r).members.entries.find? (·.2.isNone) <;> exact .of_eq rfl rfl rfl

/-! ### Attributes and modules -/

lemma setClassAttribute_sameCode (c : Ref .cls) (x : String) (v : Value) :
    (setClassAttribute c x v).Within SameCode := by
  intro s
  unfold EStateM.after setClassAttribute
  cases (s.lineage c).find? fun d => (s.cls d).classMembers.contains x with
  | none => exact refl s
  | some owner =>
    by_cases hk : ((s.cls owner).classMembers.find? x).any (·.constant) = true
    · simp only [if_pos hk]
      exact refl s
    · simp only [if_neg hk]
      exact .of_eq rfl rfl rfl

lemma setInstanceAttribute_sameCode (r : Ref .inst) (x : String) (v : Value) :
    (setInstanceAttribute r x v).Within SameCode := by
  intro s
  unfold EStateM.after setInstanceAttribute
  by_cases hx : (s.inst r).members.contains x = true
  · by_cases hk : (!(s.inst r).initializing && s.isConstantMember (s.inst r).cls x) = true
    · simp only [hx, hk, Bool.not_true, Bool.false_eq_true, if_false, if_true]
      exact refl s
    · simp only [hx, hk, Bool.not_true, Bool.false_eq_true, if_false]
      exact .of_eq rfl rfl rfl
  · simp only [hx, Bool.not_false, if_true]
    exact refl s

lemma setAttribute_sameCode (subject : Value) (x : String) (v : Value) :
    (setAttribute subject x v).Within SameCode := by
  have refused (o : Bool) : (do
      unless o do
        throw (.cannotSetAttribute ((← get).label subject)) : StoreM Unit).Within SameCode := by
    cases o with
    | true => exact .pure ()
    | false => exact .bind .get fun _ => .throw _
  refine .bind ?_ refused
  unfold trySetAttribute
  cases subject with
  | cls c => exact .bind (setClassAttribute_sameCode c x v) fun _ => .pure _
  | inst r => exact .bind (setInstanceAttribute_sameCode r x v) fun _ => .pure _
  | bound r =>
    refine .bind .get fun s => ?_
    cases s.bound r with
    | super owner receiver => exact .throw _
    | _ => exact .pure _
  | module r =>
    refine .bind (.bind .get fun s => .ite ?_ (.throw _)) fun _ => .pure _
    exact assign_sameCode (s.module r).scope x v
  | info r => exact .throw _
  | _ => exact .pure _

/-- One name after the other is exported. -/
lemma exportNames_cons (r : Ref .module) (x : String) (rest : List String) (s : Store) :
    exportNames r (x :: rest) s =
      if s.holds (s.module r).scope x then
        exportNames r rest
          (s.setModule r { s.module r with exports := (s.module r).exports.insert x })
      else .error (.undefinedExport x) s := by
  have hstep : exportNames r (x :: rest) s =
      (if s.holds (s.module r).scope x then do
        modify fun s' => s'.setModule r
          { s.module r with exports := (s.module r).exports.insert x }
        exportNames r rest
      else throw (.undefinedExport x) : StoreM Unit) s := rfl
  rw [hstep]
  split <;> rfl

lemma exportNames_sameCode (r : Ref .module) (names : List String) :
    (exportNames r names).Within SameCode := by
  induction names with
  | nil => exact .pure ()
  | cons x rest ih =>
    intro s
    rw [EStateM.after, exportNames_cons]
    by_cases h : s.holds (s.module r).scope x = true
    · rw [if_pos h]
      exact Trans.trans (Store.SameCode.setExports s r _) (ih _)
    · rw [if_neg h]
      exact refl s

lemma receiverBindings_sameCode (receiver : Receiver) (f : Ref .function) :
    (Evaluator.receiverBindings receiver f).Within SameCode := by
  refine .bind .get fun s => ?_
  cases (s.function f).owner with
  | none => exact .pure _
  | some owner => exact .bind (fun _ => .of_eq rfl rfl rfl) fun _ => .pure _

lemma newModuleAt_sameCode (path : String) : (newModuleAt path).Within SameCode := by
  refine .bind (fun s => .pushScope s _) fun scope => .bind (fun s => .pushModule s _) fun r => ?_
  exact .bind (declare_sameCode scope "wei" (.info r) true) fun _ => .pure r

end StoreM

end Wei
