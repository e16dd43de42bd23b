import Mathlib.Logic.Relation
import Wei.Module
import Wei.Proofs.Sound

/-!
All that can happen to the store. Whatever a script does, the store changes by one of the edits
below at a time, and each says under which conditions it is made: a name is declared where it is not
bound, a constant is never written, a method goes into the table of the class that owns it, and what
is bound to a receiver has been found for it. So what holds of the store at first and is kept by
every edit holds at all times.
-/

namespace Wei

namespace Store

/-- **How a function comes to be called on a receiver**: it is found along the line of the class of
the receiver, or through `super`, or it has been bound to the receiver before. -/
inductive Calls (s : Store) : Receiver → Ref .function → Prop
  | method {this : Ref .inst} {x : String} {f : Ref .function} :
    s.findMethod? (s.inst this).cls x = some f → Calls s (.inst this) f
  | classMethod {c : Ref .cls} {x : String} {f : Ref .function} :
    s.findSlot? c x = some (.method f) → Calls s (.cls c) f
  | superMethod {b : Ref .bound} {owner : Ref .cls} {this : Ref .inst} {x : String}
      {f : Ref .function} : b.Live s.census → s.bound b = .super owner (.inst this) →
    s.findSuper? owner (.inst this) x = some (.inl f) → Calls s (.inst this) f
  | superClassMethod {b : Ref .bound} {owner : Ref .cls} {receiver : Receiver} {x : String}
      {f : Ref .function} : b.Live s.census → s.bound b = .super owner receiver →
    s.findSuper? owner receiver x = some (.inr (.method f)) →
    Calls s (.cls (s.receiverClass receiver)) f
  | boundMethod {b : Ref .bound} {this : Ref .inst} {f : Ref .function} :
    b.Live s.census → s.bound b = .method this f → Calls s (.inst this) f
  | boundClassMethod {b : Ref .bound} {c : Ref .cls} {f : Ref .function} :
    b.Live s.census → s.bound b = .classMethod c f → Calls s (.cls c) f

/-- What may be bound: a function to a receiver on which it may be called, and `super`, in such a
call, to the class that owns the function. -/
inductive Binds (s : Store) : Bound → Prop
  | text (m : TextMethod) (t : Text) : Binds s (.text m t)
  | list (m : ListMethod) (r : Ref .list) : Binds s (.list m r)
  | method {this : Ref .inst} {f : Ref .function} :
    s.Calls (.inst this) f → Binds s (.method this f)
  | classMethod {c : Ref .cls} {f : Ref .function} :
    s.Calls (.cls c) f → Binds s (.classMethod c f)
  | super {receiver : Receiver} {f : Ref .function} {owner : Ref .cls} :
    s.Calls receiver f → (s.function f).owner = some owner → Binds s (.super owner receiver)

variable [Alphabet]

/-- **One change of the store.** -/
inductive Edit (strict : Bool) (s : Store) : Store → Prop
  | newScope {outer : Option (Ref .scope)} :
    (∀ q ∈ outer, q.Live s.census) → Edit strict s (s.add (k := .scope) ⟨.empty, outer⟩)
  | declare {r : Ref .scope} {x : String} {b : Binding} :
    r.Live s.census → b.value.Live s.census → s.holds r x = false →
      Edit strict s (s.writeBinding r x b)
  | bindParameter {r : Ref .scope} {x : String} {v : Value} :
    r.Live s.census → v.Live s.census → s.isConstant r x = false →
      Edit strict s (s.writeBinding r x ⟨v, false⟩)
  | assign {r : Ref .scope} {x : String} {v : Value} :
    r.Live s.census → v.Live s.census → s.holds r x = true → s.isConstant r x = false →
      Edit strict s (s.writeBinding r x ⟨v, false⟩)
  | newList {vs : List Value} :
    (∀ v ∈ vs, v.Live s.census) → Edit strict s (s.add (k := .list) vs)
  | setList {r : Ref .list} {vs : List Value} :
    r.Live s.census → (∀ v ∈ vs, v.Live s.census) → Edit strict s (s.setList r vs)
  | newDict {d : Dict} :
    (∀ e ∈ d.entries, e.2.1.hashKey? = some e.1 ∧ e.2.1.Live s.census ∧ e.2.2.Live s.census) →
      Edit strict s (s.add (k := .dict) d)
  | setItem {r : Ref .dict} {hash : HashKey} {key v : Value} :
    r.Live s.census → key.Live s.census → v.Live s.census → key.hashKey? = some hash →
      Edit strict s (s.setDict r ((s.dict r).insert hash (key, v)))
  | newFunction {f : Closure} :
    f.scope.Live s.census → (∀ c ∈ f.owner, c.Live s.census) →
      Admits strict (Stmt.allConform f.body) → Edit strict s (s.add (k := .function) f)
  | newClass {x : String} {parent : Ref .cls} :
    parent.Live s.census → Edit strict s (s.add (k := .cls) (Class.blank x (some parent)))
  | addMember {c : Ref .cls} {x : String} {d : Member} :
    c.Live s.census → (∀ v ∈ d.default, v.Live s.census) →
      (s.cls c).members.contains x = false →
      Edit strict s (s.setClass c { s.cls c with members := (s.cls c).members.insert x d })
  | addClassMember {c : Ref .cls} {x : String} {b : Binding} :
    c.Live s.census → b.value.Live s.census → (s.cls c).classMembers.contains x = false →
      Edit strict s
        (s.setClass c { s.cls c with classMembers := (s.cls c).classMembers.insert x b })
  | addMethod {c : Ref .cls} {x : String} {f : Ref .function} :
    c.Live s.census → f.Live s.census → (s.function f).owner = some c →
      (s.function f).name.getD "" = x → (s.cls c).methods.contains x = false →
      Edit strict s (s.setClass c { s.cls c with methods := (s.cls c).methods.insert x f })
  | addClassMethod {c : Ref .cls} {x : String} {f : Ref .function} :
    c.Live s.census → f.Live s.census → (s.function f).owner = some c →
      (s.function f).name.getD "" = x → (s.cls c).classMethods.contains x = false →
      Edit strict s
        (s.setClass c { s.cls c with classMethods := (s.cls c).classMethods.insert x f })
  | setClassMember {c : Ref .cls} {x : String} {v : Value} :
    c.Live s.census → v.Live s.census → (s.cls c).classMembers.contains x = true →
      ((s.cls c).classMembers.find? x).any (·.constant) = false →
      Edit strict s (s.setClass c
        { s.cls c with classMembers := (s.cls c).classMembers.insert x ⟨v, false⟩ })
  | newInst {c : Ref .cls} :
    c.Live s.census → Edit strict s (s.add (k := .inst) ⟨c, s.flattenedMembers c, true⟩)
  | setMember {r : Ref .inst} {x : String} {v : Value} :
    r.Live s.census → v.Live s.census → (s.inst r).members.contains x = true →
      ((s.inst r).initializing = true ∨ s.isConstantMember (s.inst r).cls x = false) →
      Edit strict s (s.setInst r { s.inst r with members := (s.inst r).members.insert x (some v) })
  | finish {r : Ref .inst} :
    r.Live s.census → (∀ e ∈ (s.inst r).members.entries, e.2.isSome) →
      Edit strict s (s.setInst r { s.inst r with initializing := false })
  | newBound {b : Bound} :
    (∀ v ∈ Cell.values (k := .bound) b, v.Live s.census) →
      (∀ l ∈ Cell.links (k := .bound) b, l.2.Live s.census) → s.Binds b →
      Edit strict s (s.add (k := .bound) b)
  | newModule {path : String} {scope : Ref .scope} :
    scope.Live s.census → Edit strict s (s.add (k := .module) ⟨path, scope, []⟩)
  | exportName {r : Ref .module} {x : String} :
    r.Live s.census → s.holds (s.module r).scope x = true →
      Edit strict s (s.setModule r { s.module r with exports := (s.module r).exports.insert x })

/-- A cell is made or replaced, and its content is sound. -/
inductive Change (strict : Bool) (s : Store) : Store → Prop
  | add {k : Kind} {x : Cell k} : Cell.Sound strict s.census x → Change strict s (s.add x)
  | write {k : Kind} {r : Ref k} {x : Cell k} :
    r.Live s.census → Cell.Sound strict s.census x → Change strict s (s.write r x)

variable {strict : Bool} {s s' : Store}

lemma Change.sound (h : Change strict s s') (hs : s.Sound strict) : s'.Sound strict := by
  cases h with
  | add hx => exact hs.add hx
  | write hr hx => exact hs.write hr hx

lemma Change.census_le (h : Change strict s s') : s.census ≤ s'.census := by
  cases h with
  | add hx => exact s.census_le_add _
  | write hr hx => exact le_of_eq (s.census_write hr _).symm

end Store

/-! ### Contents after an edit -/

namespace Cell.Sound

variable [Alphabet] {strict : Bool} {n : Census}

lemma writeBinding {c : Scope} (h : Cell.Sound strict n (k := .scope) c) {x : String} {b : Binding}
    (hb : b.value.Live n) :
    Cell.Sound strict n (k := .scope) { c with bindings := c.bindings.insert x b } := by
  refine ⟨fun v hv => ?_, h.links, h.code⟩
  obtain ⟨b', hb', rfl⟩ := List.mem_map.mp hv
  rcases OrderedMap.mem_values_insert hb' with rfl | hb'
  · exact hb
  · exact h.values _ (List.mem_map_of_mem hb')

lemma dict {d : Dict} (h : ∀ e ∈ d.entries, e.2.1.Live n ∧ e.2.2.Live n) :
    Cell.Sound strict n (k := .dict) d := by
  refine ⟨fun v hv => ?_, nofun, .always⟩
  obtain ⟨p, hp, hv⟩ := List.mem_flatMap.mp hv
  obtain ⟨e, he, rfl⟩ := List.mem_map.mp hp
  rcases List.mem_cons.mp hv with rfl | hv
  · exact (h e he).1
  · rw [List.mem_singleton.mp hv]
    exact (h e he).2

lemma addMember {c : Class} (h : Cell.Sound strict n (k := .cls) c) {x : String} {d : Member}
    (hd : ∀ v ∈ d.default, v.Live n) :
    Cell.Sound strict n (k := .cls) { c with members := c.members.insert x d } := by
  refine ⟨fun v hv => ?_, h.links, h.code⟩
  rcases List.mem_append.mp hv with hv | hv
  · obtain ⟨d', hd', e⟩ := List.mem_filterMap.mp hv
    rcases OrderedMap.mem_values_insert hd' with rfl | hd'
    · exact hd v e
    · exact h.values v (List.mem_append_left _ (List.mem_filterMap.mpr ⟨d', hd', e⟩))
  · exact h.values v (List.mem_append_right _ hv)

lemma writeClassMember {c : Class} (h : Cell.Sound strict n (k := .cls) c) {x : String}
    {b : Binding} (hb : b.value.Live n) :
    Cell.Sound strict n (k := .cls) { c with classMembers := c.classMembers.insert x b } := by
  refine ⟨fun v hv => ?_, h.links, h.code⟩
  rcases List.mem_append.mp hv with hv | hv
  · exact h.values v (List.mem_append_left _ hv)
  · obtain ⟨b', hb', rfl⟩ := List.mem_map.mp hv
    rcases OrderedMap.mem_values_insert hb' with rfl | hb'
    · exact hb
    · exact h.values _ (List.mem_append_right _ (List.mem_map_of_mem hb'))

lemma withMethods {c : Class} (h : Cell.Sound strict n (k := .cls) c)
    {methods classMethods : OrderedMap String (Ref .function)}
    (hf : ∀ f ∈ methods.values ++ classMethods.values, f.Live n) :
    Cell.Sound strict n (k := .cls)
      { c with methods := methods, classMethods := classMethods } := by
  refine ⟨h.values, fun l hl => ?_, h.code⟩
  rcases List.mem_append.mp hl with hl | hl
  · exact h.links l (List.mem_append_left _ hl)
  · obtain ⟨f, hmem, rfl⟩ := List.mem_map.mp hl
    exact hf f hmem

lemma setMember {i : Instance} (h : Cell.Sound strict n (k := .inst) i) {x : String} {v : Value}
    (hv : v.Live n) :
    Cell.Sound strict n (k := .inst) { i with members := i.members.insert x (some v) } := by
  refine ⟨fun w hw => ?_, h.links, h.code⟩
  obtain ⟨o, ho, rfl⟩ := List.mem_filterMap.mp hw
  rcases OrderedMap.mem_values_insert ho with e | ho
  · obtain ⟨⟩ := e
    exact hv
  · exact h.values w (List.mem_filterMap.mpr ⟨some w, ho, rfl⟩)

end Cell.Sound

namespace Store.Edit

variable [Alphabet] {strict : Bool} {s s' : Store}

/-- **Every edit makes or replaces one cell**, and leaves something sound in it. -/
lemma change (h : Edit strict s s') (hs : s.Sound strict) : Change strict s s' := by
  cases h with
  | newScope ho =>
    refine .add ⟨nofun, fun l hl => ?_, .always⟩
    obtain ⟨q, hq, rfl⟩ := List.mem_map.mp hl
    exact ho q (Option.mem_toList.mp hq)
  | declare hr hb hx => exact .write hr ((hs.cell _ hr).writeBinding hb)
  | bindParameter hr hv hx => exact .write hr ((hs.cell _ hr).writeBinding hv)
  | assign hr hv hx hc => exact .write hr ((hs.cell _ hr).writeBinding hv)
  | newList hvs => exact .add ⟨hvs, nofun, .always⟩
  | setList hr hvs => exact .write (k := .list) hr ⟨hvs, nofun, .always⟩
  | newDict hd => exact .add (.dict fun e he => (hd e he).2)
  | setItem hr hk hv hh =>
    refine .write hr (.dict fun e he => ?_)
    rcases OrderedMap.mem_entries_insert he with rfl | he
    · exact ⟨hk, hv⟩
    · exact hs.entry_live hr (List.mem_map_of_mem he)
  | newFunction hscope howner hbody =>
    refine .add ⟨nofun, fun l hl => ?_, hbody⟩
    rcases List.mem_cons.mp hl with rfl | hl
    · exact hscope
    · obtain ⟨c, hc, rfl⟩ := List.mem_map.mp hl
      exact howner c (Option.mem_toList.mp hc)
  | newClass hp =>
    refine .add ⟨nofun, fun l hl => ?_, .always⟩
    obtain rfl := List.mem_singleton.mp hl
    exact hp
  | addMember hc hd hx => exact .write hc ((hs.cell _ hc).addMember hd)
  | addClassMember hc hb hx => exact .write hc ((hs.cell _ hc).writeClassMember hb)
  | addMethod hc hf ho hn hx =>
    refine .write hc ((hs.cell _ hc).withMethods fun g hg => ?_)
    rcases List.mem_append.mp hg with hg | hg
    · rcases OrderedMap.mem_values_insert hg with rfl | hg
      · exact hf
      · exact hs.method_live hc (List.mem_append_left _ hg)
    · exact hs.method_live hc (List.mem_append_right _ hg)
  | addClassMethod hc hf ho hn hx =>
    refine .write hc ((hs.cell _ hc).withMethods fun g hg => ?_)
    rcases List.mem_append.mp hg with hg | hg
    · exact hs.method_live hc (List.mem_append_left _ hg)
    · rcases OrderedMap.mem_values_insert hg with rfl | hg
      · exact hf
      · exact hs.method_live hc (List.mem_append_right _ hg)
  | setClassMember hc hv hx hk => exact .write hc ((hs.cell _ hc).writeClassMember hv)
  | newInst hc =>
    refine .add ⟨fun v hv => ?_, fun l hl => ?_, .always⟩
    · obtain ⟨o, ho, rfl⟩ := List.mem_filterMap.mp hv
      exact hs.flattenedMembers_live hc v ho
    · obtain rfl := List.mem_singleton.mp hl
      exact hc
  | setMember hr hv hx hk => exact .write hr ((hs.cell _ hr).setMember hv)
  | finish hr hm =>
    have h := hs.cell _ hr
    exact .write hr ⟨h.values, h.links, h.code⟩
  | newBound hv hl hb => exact .add ⟨hv, hl, .always⟩
  | newModule hscope =>
    refine .add ⟨nofun, fun l hl => ?_, .always⟩
    obtain rfl := List.mem_singleton.mp hl
    exact hscope
  | exportName hr hx =>
    have h := hs.cell _ hr
    exact .write hr ⟨h.values, h.links, h.code⟩

lemma sound (h : Edit strict s s') (hs : s.Sound strict) : s'.Sound strict := (h.change hs).sound hs

lemma census_le (h : Edit strict s s') (hs : s.Sound strict) : s.census ≤ s'.census :=
  (h.change hs).census_le

end Store.Edit

end Wei
