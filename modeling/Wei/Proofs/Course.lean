import Mathlib.Logic.Relation
import Wei.Attribute
import Wei.ListMethod
import Wei.Proofs.After

/-!
The course of a store: what can happen to it, one change at a time, and where declarations land.

A scope takes declarations while the statements in it run, and a class while its body runs; until
then the place is *open*. Scopes and classes are open from when they are made, and the one that was
opened last is closed first. So what a course does to the places that were there before it, and are
not open, is little: values are written where variables have been declared, and that is all.

The edits that keep a store sound are about what is held. Here it is about where things land, and
stores need not be sound.
-/

namespace Wei

/-! ### Places and changes -/

/-- A place for declarations. -/
inductive Site where
  | scope (r : Ref .scope)
  | cls (c : Ref .cls)
  deriving DecidableEq

namespace Store

/-- **One change of the scopes, classes and instances of a store**, while these places are open. New
scopes and classes are not among the changes: they come with being opened. -/
inductive Write (sites : List Site) (s : Store) : Store → Prop
  | elsewhere {s' : Store} :
    s'.scopes = s.scopes → s'.classes = s.classes → s'.instances = s.instances → Write sites s s'
  | declare {r : Ref .scope} {x : String} {b : Binding} :
    .scope r ∈ sites → s.holds r x = false → Write sites s (s.writeBinding r x b)
  | assign {r : Ref .scope} {x : String} {v : Value} :
    s.holds r x = true → s.isConstant r x = false → Write sites s (s.writeBinding r x ⟨v, false⟩)
  | addMember {c : Ref .cls} {x : String} {d : Member} :
    .cls c ∈ sites → (s.cls c).members.contains x = false →
      Write sites s (s.setClass c { s.cls c with members := (s.cls c).members.insert x d })
  | addClassMember {c : Ref .cls} {x : String} {b : Binding} :
    .cls c ∈ sites → (s.cls c).classMembers.contains x = false →
      Write sites s
        (s.setClass c { s.cls c with classMembers := (s.cls c).classMembers.insert x b })
  | addMethod {c : Ref .cls} {x : String} {f : Ref .function} :
    .cls c ∈ sites → (s.cls c).methods.contains x = false →
      Write sites s (s.setClass c { s.cls c with methods := (s.cls c).methods.insert x f })
  | addClassMethod {c : Ref .cls} {x : String} {f : Ref .function} :
    .cls c ∈ sites → (s.cls c).classMethods.contains x = false →
      Write sites s
        (s.setClass c { s.cls c with classMethods := (s.cls c).classMethods.insert x f })
  | setClassMember {c : Ref .cls} {x : String} {v : Value} :
    (s.cls c).classMembers.contains x = true →
      ((s.cls c).classMembers.find? x).any (·.constant) = false →
      Write sites s (s.setClass c
        { s.cls c with classMembers := (s.cls c).classMembers.insert x ⟨v, false⟩ })
  | newInstance {c : Ref .cls} :
    Write sites s { s with instances := s.instances.push ⟨c, s.flattenedMembers c, true⟩ }
  | setMember {r : Ref .inst} {x : String} {v : Value} :
    (s.inst r).members.contains x = true →
      ((s.inst r).initializing = true ∨ s.isConstantMember (s.inst r).cls x = false) →
      Write sites s
        (s.setInst r { s.inst r with members := (s.inst r).members.insert x (some v) })
  | finishInstance {r : Ref .inst} :
    (∀ e ∈ (s.inst r).members.entries, e.2.isSome) →
      Write sites s (s.setInst r { s.inst r with initializing := false })

end Store

/-- The store at some time, with the places that are open then, latest first. -/
structure Phase where
  store : Store
  sites : List Site

/-- **What can happen next.** -/
inductive Phase.Next : Phase → Phase → Prop
  | write {s s' : Store} {sites : List Site} : s.Write sites s' → Next ⟨s, sites⟩ ⟨s', sites⟩
  | openScope (s : Store) (sites : List Site) (outer : Option (Ref .scope)) :
    Next ⟨s, sites⟩
      ⟨{ s with scopes := s.scopes.push ⟨.empty, outer⟩ }, .scope ⟨s.scopes.size⟩ :: sites⟩
  | openClass (s : Store) (sites : List Site) (x : String) (parent : Ref .cls) :
    Next ⟨s, sites⟩
      ⟨{ s with classes := s.classes.push (Class.blank x (some parent)) },
        .cls ⟨s.classes.size⟩ :: sites⟩
  | close (s : Store) (site : Site) (sites : List Site) : Next ⟨s, site :: sites⟩ ⟨s, sites⟩

namespace Phase.Next

variable {φ ψ : Phase}

/-- Only what is new is opened. -/
lemma mem_sites (h : φ.Next ψ) {site : Site} (hsite : site ∈ ψ.sites) :
    site ∈ φ.sites ∨ site = .scope ⟨φ.store.scopes.size⟩ ∨
      site = .cls ⟨φ.store.classes.size⟩ := by
  cases h with
  | write _ => exact .inl hsite
  | openScope s sites outer =>
    rcases List.mem_cons.mp hsite with e | hmem
    · exact .inr (.inl e)
    · exact .inl hmem
  | openClass s sites x parent =>
    rcases List.mem_cons.mp hsite with e | hmem
    · exact .inr (.inr e)
    · exact .inl hmem
  | close s site' sites => exact .inl (List.mem_cons_of_mem _ hsite)

lemma scopes_size_le (h : φ.Next ψ) : φ.store.scopes.size ≤ ψ.store.scopes.size := by
  cases h with
  | write h =>
    cases h with
    | elsewhere hs _ _ => exact Nat.le_of_eq (congrArg Arena.size hs).symm
    | declare _ _ => exact Arena.size_le_set ..
    | assign _ _ => exact Arena.size_le_set ..
    | _ => exact Nat.le_refl _
  | openScope s sites outer =>
    show s.scopes.size ≤ (s.scopes.push _).size
    rw [Arena.size_push]
    exact Nat.le_succ _
  | _ => exact Nat.le_refl _

/-- A scope that is there stays as it is, or gets a declaration, or one of its variables is
assigned. -/
lemma scope_cases (h : φ.Next ψ) {r : Ref .scope} (hr : r.index < φ.store.scopes.size) :
    ψ.store.scope r = φ.store.scope r ∨
      (∃ x b, .scope r ∈ φ.sites ∧ φ.store.holds r x = false ∧ ψ.store.scope r =
        { φ.store.scope r with bindings := (φ.store.scope r).bindings.insert x b }) ∨
      ∃ x v, φ.store.holds r x = true ∧ φ.store.isConstant r x = false ∧ ψ.store.scope r =
        { φ.store.scope r with bindings := (φ.store.scope r).bindings.insert x ⟨v, false⟩ } := by
  cases h with
  | write h =>
    cases h with
    | elsewhere hs _ _ =>
      left
      unfold Store.scope
      rw [hs]
    | @declare q x b hsite hnew =>
      dsimp only [Store.writeBinding]
      rw [Store.scope_setScope]
      by_cases hq : q = r
      · subst hq
        exact .inr (.inl ⟨x, b, hsite, hnew, if_pos rfl⟩)
      · exact .inl (if_neg hq)
    | @assign q x v hheld hconst =>
      dsimp only [Store.writeBinding]
      rw [Store.scope_setScope]
      by_cases hq : q = r
      · subst hq
        exact .inr (.inr ⟨x, v, hheld, hconst, if_pos rfl⟩)
      · exact .inl (if_neg hq)
    | _ => exact .inl rfl
  | openScope s sites outer => exact .inl (Arena.get_push_of_ne _ _ (Nat.ne_of_lt hr))
  | openClass => exact .inl rfl
  | close => exact .inl rfl

end Phase.Next

/-- A course takes the one store to the other. Places that it opens it closes again, so that in the
end the same ones are open. -/
def Store.Course (sites : List Site) (s s' : Store) : Prop :=
  Relation.ReflTransGen Phase.Next ⟨s, sites⟩ ⟨s', sites⟩

namespace Store

variable {sites : List Site} {s s' : Store}

instance : Std.Refl (Store.Course sites) := ⟨fun _ => .refl⟩

instance : IsTrans Store (Store.Course sites) :=
  ⟨fun _ _ _ h h' => Relation.ReflTransGen.trans h h'⟩

namespace Course

lemma refl (s : Store) : s.Course sites s := Relation.ReflTransGen.refl

lemma write (h : s.Write sites s') : s.Course sites s' := .single (.write h)

/-- A course in a new scope. -/
lemma inScope (outer : Option (Ref .scope))
    (h : Course (.scope ⟨s.scopes.size⟩ :: sites)
      { s with scopes := s.scopes.push ⟨.empty, outer⟩ } s') : s.Course sites s' :=
  (Relation.ReflTransGen.head (.openScope s sites outer) h).tail (.close s' _ sites)

/-- A course in a new class. -/
lemma inClass {x : String} {parent : Ref .cls}
    (h : Course (.cls ⟨s.classes.size⟩ :: sites)
      { s with classes := s.classes.push (Class.blank x (some parent)) } s') : s.Course sites s' :=
  (Relation.ReflTransGen.head (.openClass s sites x parent) h).tail (.close s' _ sites)

end Course

/-- Scopes, classes and instances are the same. -/
structure SameTables (s s' : Store) : Prop where
  scopes : s'.scopes = s.scopes
  classes : s'.classes = s.classes
  instances : s'.instances = s.instances

instance : Std.Refl SameTables := ⟨fun _ => ⟨rfl, rfl, rfl⟩⟩

instance : IsTrans Store SameTables :=
  ⟨fun _ _ _ h h' => ⟨h'.scopes.trans h.scopes, h'.classes.trans h.classes,
    h'.instances.trans h.instances⟩⟩

/-- Nothing differs but what is in lists and dictionaries, and which methods have been bound. -/
structure SameButContents (s s' : Store) : Prop extends SameTables s s' where
  functions : s'.functions = s.functions
  modules : s'.modules = s.modules

instance : Std.Refl SameButContents := ⟨fun _ => ⟨⟨rfl, rfl, rfl⟩, rfl, rfl⟩⟩

instance : IsTrans Store SameButContents :=
  ⟨fun _ _ _ h h' => ⟨Trans.trans h.toSameTables h'.toSameTables, h'.functions.trans h.functions,
    h'.modules.trans h.modules⟩⟩

end Store

/-- The operation is a course, whatever its outcome. -/
abbrev StoreM.Tidy (sites : List Site) {α : Type} (x : StoreM α) : Prop :=
  x.Within (Store.Course sites)

namespace StoreM

open EStateM Store

variable {sites : List Site} {s : Store} {α : Type} {x : StoreM α}

/-- An operation that has nothing to do with scopes, classes and instances. -/
lemma Tidy.of_sameTables (hx : x.Within SameTables) : x.Tidy sites :=
  hx.imp fun _ _ h => .write (.elsewhere h.scopes h.classes h.instances)

/-- An operation that refuses or makes one change. -/
lemma course_of_guard {c : Prop} [Decidable c] {f : Fault} {s' : Store} {x : StoreM Unit}
    (hx : x s = if c then .error f s else .ok () s') (h : ¬ c → s.Write sites s') :
    s.Course sites (x.after s) := by
  by_cases hc : c
  · rw [if_pos hc] at hx
    rw [after_of_error hx]
    exact .refl s
  · rw [if_neg hc] at hx
    rw [after_of_ok hx]
    exact .write (h hc)

/-! ### Scopes -/

lemma declare_tidy {r : Ref .scope} (hr : .scope r ∈ sites) (x : String) (v : Value)
    (constant : Bool) : (declare r x v constant).Tidy sites :=
  fun _ => course_of_guard rfl fun h => .declare hr (eq_false_of_ne_true h)

lemma declareAll_tidy {r : Ref .scope} (hr : .scope r ∈ sites) (constant : Bool)
    (bindings : List (String × Value)) : (declareAll r constant bindings).Tidy sites := by
  induction bindings with
  | nil => exact .pure ()
  | cons b rest ih => exact .bind (declare_tidy hr b.1 b.2 constant) fun _ => ih

/-- Parameters are bound in a scope that has no constants. A parameter that comes twice is declared
the first time and assigned the second. -/
lemma bindParameters_course {r : Ref .scope} (hr : .scope r ∈ sites)
    (hc : ∀ x, s.isConstant r x = false) (bindings : List (String × Value)) :
    s.Course sites ((bindParameters r bindings).after s) := by
  induction bindings generalizing s with
  | nil => exact .refl s
  | cons b rest ih =>
    have hbind : bindParameter r b.1 b.2 s = .ok () (s.writeBinding r b.1 ⟨b.2, false⟩) := by
      unfold bindParameter
      rw [hc b.1]
    have hfirst : s.Course sites (s.writeBinding r b.1 ⟨b.2, false⟩) := by
      by_cases h : s.holds r b.1 = true
      · exact .write (.assign h (hc b.1))
      · exact .write (.declare hr (eq_false_of_ne_true h))
    have hafter : (bindParameters r (b :: rest)).after s =
        (bindParameters r rest).after (s.writeBinding r b.1 ⟨b.2, false⟩) :=
      after_bind_of_ok (f := fun _ => bindParameters r rest) hbind
    rw [hafter]
    exact hfirst.trans (ih (isConstant_writeBinding hc b.1 b.2))

lemma assign_tidy (r : Ref .scope) (x : String) (v : Value) : (assign r x v).Tidy sites := by
  intro s
  unfold EStateM.after assign
  cases hq : s.holder? r x with
  | none => exact .refl s
  | some q =>
    have hholds : s.holds q x = true := List.find?_some (p := (s.holds · x)) hq
    by_cases hc : s.isConstant q x = true
    · simp only [if_pos hc]
      exact .refl s
    · simp only [if_neg hc]
      exact .write (.assign hholds (eq_false_of_ne_true hc))

/-! ### Classes -/

lemma addMember_tidy {c : Ref .cls} (hc : .cls c ∈ sites) (x : String) (default : Option Value)
    (constant : Bool) : (addMember c x default constant).Tidy sites :=
  fun _ => course_of_guard rfl fun h => .addMember hc (eq_false_of_ne_true h)

lemma addClassMember_tidy {c : Ref .cls} (hc : .cls c ∈ sites) (x : String) (v : Value)
    (constant : Bool) : (addClassMember c x v constant).Tidy sites :=
  fun _ => course_of_guard rfl fun h => .addClassMember hc (eq_false_of_ne_true h)

lemma addMethod_tidy {c : Ref .cls} (hc : .cls c ∈ sites) (x : String) (f : Ref .function) :
    (addMethod c x f).Tidy sites :=
  fun _ => course_of_guard rfl fun h => .addMethod hc (eq_false_of_ne_true h)

lemma addClassMethod_tidy {c : Ref .cls} (hc : .cls c ∈ sites) (x : String) (f : Ref .function) :
    (addClassMethod c x f).Tidy sites :=
  fun _ => course_of_guard rfl fun h => .addClassMethod hc (eq_false_of_ne_true h)

lemma setClassAttribute_tidy (c : Ref .cls) (x : String) (v : Value) :
    (setClassAttribute c x v).Tidy sites := by
  intro s
  unfold EStateM.after setClassAttribute
  cases hq : (s.lineage c).find? fun d => (s.cls d).classMembers.contains x with
  | none => exact .refl s
  | some owner =>
    have hheld := List.find?_some hq
    by_cases hk : ((s.cls owner).classMembers.find? x).any (·.constant) = true
    · simp only [if_pos hk]
      exact .refl s
    · simp only [if_neg hk]
      exact .write (.setClassMember hheld (eq_false_of_ne_true hk))

/-! ### Instances -/

lemma newInstance_tidy (c : Ref .cls) : (newInstance c).Tidy sites := fun _ => .write .newInstance

lemma setInstanceAttribute_tidy (r : Ref .inst) (x : String) (v : Value) :
    (setInstanceAttribute r x v).Tidy sites := by
  intro s
  unfold EStateM.after setInstanceAttribute
  by_cases hx : (s.inst r).members.contains x = true
  · by_cases hk : (!(s.inst r).initializing && s.isConstantMember (s.inst r).cls x) = true
    · simp only [hx, hk, Bool.not_true, Bool.false_eq_true, if_false, if_true]
      exact .refl s
    · simp only [hx, hk, Bool.not_true, Bool.false_eq_true, if_false]
      refine .write (.setMember hx ?_)
      cases hi : (s.inst r).initializing with
      | true => exact .inl rfl
      | false => exact .inr (by simpa [hi] using hk)
  · simp only [hx, Bool.not_false, if_true]
    exact .refl s

lemma finishInstance_tidy (r : Ref .inst) : (finishInstance r).Tidy sites := by
  intro s
  unfold EStateM.after finishInstance
  cases h : (s.inst r).members.entries.find? (·.2.isNone) with
  | some e =>
    simp only [h]
    exact .refl s
  | none =>
    simp only [h]
    refine .write (.finishInstance fun e he => ?_)
    simpa [Option.isSome_iff_ne_none] using List.find?_eq_none.mp h e he

/-! ### Lists, dictionaries, functions, bound methods and modules -/

lemma newList_sameButContents (vs : List Value) : (newList vs).Within SameButContents :=
  fun _ => ⟨⟨rfl, rfl, rfl⟩, rfl, rfl⟩

lemma newDict_sameButContents (d : Dict) : (newDict d).Within SameButContents :=
  fun _ => ⟨⟨rfl, rfl, rfl⟩, rfl, rfl⟩

lemma newFunction_sameTables (f : Closure) : (newFunction f).Within SameTables :=
  fun _ => ⟨rfl, rfl, rfl⟩

lemma newBound_sameButContents (b : Bound) : (newBound b).Within SameButContents :=
  fun _ => ⟨⟨rfl, rfl, rfl⟩, rfl, rfl⟩

lemma setItem_sameButContents (subject index v : Value) :
    (setItem subject index v).Within SameButContents := by
  intro s
  cases subject with
  | list r =>
    show SameButContents s ((setListItem r index v).after s)
    unfold EStateM.after setListItem
    rcases s.listIndex r index with f | _ | k <;> exact ⟨⟨rfl, rfl, rfl⟩, rfl, rfl⟩
  | dict r =>
    show SameButContents s ((setDictItem r index v).after s)
    unfold EStateM.after setDictItem
    cases index.hashKey? <;> exact ⟨⟨rfl, rfl, rfl⟩, rfl, rfl⟩
  | _ => exact ⟨⟨rfl, rfl, rfl⟩, rfl, rfl⟩

/-- A new bound method as an attribute. -/
lemma boundAttribute_sameButContents (b : Bound) :
    (do pure (some (.bound (← newBound b))) : StoreM (Option Value)).Within SameButContents :=
  .bind (newBound_sameButContents b) fun _ => .pure _

lemma classAttribute?_sameButContents (c : Ref .cls) (x : String) :
    (classAttribute? c x).Within SameButContents := by
  refine .bind .get fun s => ?_
  rcases s.findSlot? c x with _ | b | f
  · exact .pure _
  · exact .pure _
  · exact boundAttribute_sameButContents _

lemma instanceAttribute?_sameButContents (r : Ref .inst) (x : String) :
    (instanceAttribute? r x).Within SameButContents := by
  refine .bind .get fun s => ?_
  dsimp only
  rcases (s.inst r).members.find? x with _ | _ | v
  · cases s.findMethod? (s.inst r).cls x with
    | none => exact .pure _
    | some f => exact boundAttribute_sameButContents _
  · exact .throw _
  · exact .pure _

lemma superAttribute?_sameButContents (owner : Ref .cls) (receiver : Receiver) (x : String) :
    (superAttribute? owner receiver x).Within SameButContents := by
  refine .bind .get fun s => ?_
  rcases s.findSuper? owner receiver x with _ | f | b | f
  · exact .pure _
  · cases receiver with
    | inst this => exact boundAttribute_sameButContents _
    | cls c => exact .pure _
  · exact .pure _
  · exact boundAttribute_sameButContents _

lemma infoAttribute_sameButContents (r : Ref .module) (x : String) :
    (infoAttribute r x).Within SameButContents := by
  intro s
  unfold EStateM.after infoAttribute
  by_cases h : x = "filename"
  · rw [if_pos h]
    exact ⟨⟨rfl, rfl, rfl⟩, rfl, rfl⟩
  · rw [if_neg h]
    exact ⟨⟨rfl, rfl, rfl⟩, rfl, rfl⟩

lemma attribute?_sameButContents (subject : Value) (x : String) :
    (attribute? subject x).Within SameButContents := by
  unfold attribute?
  cases subject with
  | str t =>
    dsimp only
    split
    · exact boundAttribute_sameButContents _
    · exact .pure _
  | list r =>
    dsimp only
    split
    · exact boundAttribute_sameButContents _
    · exact .pure _
  | dict r => exact .bind .get fun _ => .pure _
  | cls c => exact classAttribute?_sameButContents c x
  | inst r => exact instanceAttribute?_sameButContents r x
  | bound r =>
    refine .bind .get fun s => ?_
    cases s.bound r with
    | super owner receiver => exact superAttribute?_sameButContents owner receiver x
    | _ => exact .pure _
  | module r => exact fun _ => ⟨⟨rfl, rfl, rfl⟩, rfl, rfl⟩
  | info r => exact .bind (infoAttribute_sameButContents r x) fun _ => .pure _
  | _ => exact .pure _

lemma getAttribute_sameButContents (subject : Value) (x : String) :
    (getAttribute subject x).Within SameButContents := by
  refine .bind (attribute?_sameButContents subject x) fun o => ?_
  cases o with
  | some v => exact .pure v
  | none => exact .bind .get fun _ => .throw _

lemma exportNames_sameTables (r : Ref .module) (names : List String) :
    (exportNames r names).Within SameTables := by
  induction names with
  | nil => exact .pure ()
  | cons x rest ih =>
    refine .bind .get fun s => .bind .get fun s' => .ite ?_ (.throw _)
    exact .bind (fun _ => ⟨rfl, rfl, rfl⟩) fun _ => ih

lemma textMethod_call_sameButContents (m : TextMethod) (this : Text) (args : List Value) :
    (m.call this args).Within SameButContents := by
  refine .bind .get fun s => ?_
  rcases m.answer s this args with f | v | vs
  · exact .throw f
  · exact .pure v
  · exact .bind (newList_sameButContents vs) fun _ => .pure _

lemma listMethod_call_sameButContents (m : ListMethod) (this : Ref .list) (args : List Value) :
    (m.call this args).Within SameButContents := by
  intro s
  unfold EStateM.after ListMethod.call
  cases m.change s (s.list this) args <;> exact ⟨⟨rfl, rfl, rfl⟩, rfl, rfl⟩

/-! ### Writing attributes -/

lemma setModuleAttribute_tidy (r : Ref .module) (x : String) (v : Value) :
    (setModuleAttribute r x v).Tidy sites :=
  .bind .get fun s => .ite (assign_tidy (s.module r).scope x v) (.throw _)

lemma setAttribute_tidy (subject : Value) (x : String) (v : Value) :
    (setAttribute subject x v).Tidy sites := by
  have refused (o : Bool) : (do
      unless o do
        throw (.cannotSetAttribute ((← get).label subject)) : StoreM Unit).Tidy sites := by
    cases o with
    | true => exact .pure ()
    | false => exact .bind .get fun _ => .throw _
  refine .bind ?_ refused
  unfold trySetAttribute
  cases subject with
  | cls c => exact .bind (setClassAttribute_tidy c x v) fun _ => .pure _
  | inst r => exact .bind (setInstanceAttribute_tidy r x v) fun _ => .pure _
  | bound r =>
    refine .bind .get fun s => ?_
    cases s.bound r with
    | super owner receiver => exact .throw _
    | _ => exact .pure _
  | module r => exact .bind (setModuleAttribute_tidy r x v) fun _ => .pure _
  | info r => exact .throw _
  | _ => exact .pure _

end StoreM

/-- A course in the scope of a new module. -/
lemma Store.Course.inModule {sites : List Site} {s s' : Store} (path : String)
    (h : Store.Course (.scope ⟨s.scopes.size⟩ :: sites) ((StoreM.newModuleAt path).after s) s') :
    s.Course sites s' := by
  -- the module is made, and its name for itself is declared, when the scope has been opened
  have hmake : (do
      let r ← StoreM.newModule ⟨path, ⟨s.scopes.size⟩, []⟩
      StoreM.declare ⟨s.scopes.size⟩ "wei" (.info r) true
      pure r : StoreM (Ref .module)).Tidy (.scope ⟨s.scopes.size⟩ :: sites) := by
    refine .bind (StoreM.Tidy.of_sameTables fun _ => ⟨rfl, rfl, rfl⟩) fun r => ?_
    exact .bind (StoreM.declare_tidy List.mem_cons_self _ _ _) fun _ => .pure r
  exact .inScope none ((hmake _).trans h)

end Wei
