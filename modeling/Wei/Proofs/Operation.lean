import Mathlib.Data.List.InsertIdx
import Wei.Proofs.Conduct

/-!
The operations on the store, one after the other: what each does to the store, given that nothing it
is handed is dangling, are edits, and nothing that it answers is dangling.
-/

namespace Wei

variable [A : Alphabet]

namespace StoreM.Does

variable {strict : Bool} {s : Store} {α β : Type} {Q : Store → α → Prop}

lemma pure {a : α} (h : Q s a) : StoreM.Does strict (pure a) s Q := Conduct.Allows.pure h

lemma throw (f : Fault) : StoreM.Does strict (throw f) s Q := Conduct.Allows.throw trivial

lemma bind {x : StoreM α} {f : α → StoreM β} {P : Store → α → Prop} {Q : Store → β → Prop}
    (hx : x.Does strict s P)
    (hf : ∀ a s', s'.Sound strict → s.census ≤ s'.census → P s' a → (f a).Does strict s' Q) :
    (x >>= f).Does strict s Q :=
  Conduct.Allows.bind hx hf

lemma get_bind {f : Store → StoreM α} (h : (f s).Does strict s Q) : (get >>= f).Does strict s Q := h

lemma of_sound {x : StoreM α} (h : s.Sound strict → x.Does strict s Q) : x.Does strict s Q :=
  Conduct.Allows.of_sound h

lemma ite {c : Prop} [Decidable c] {x y : StoreM α} (hx : c → x.Does strict s Q)
    (hy : ¬ c → y.Does strict s Q) : StoreM.Does strict (if c then x else y) s Q :=
  Conduct.Allows.ite hx hy

/-- An operation that is an edit. -/
lemma edit {x : StoreM α} {a : α} {s' : Store} (hx : x s = .ok a s') (h : s.Edit strict s')
    (ha : Q s' a) : x.Does strict s Q := by
  intro _
  rw [hx]
  exact ⟨.single h, ha⟩

/-- An operation that looks at the store only. -/
lemma look {x : StoreM α} {a : α} (hx : x s = .ok a s) (ha : Q s a) : x.Does strict s Q := by
  intro _
  rw [hx]
  exact ⟨.refl s, ha⟩

/-- An operation that is refused. -/
lemma refused {x : StoreM α} {f : Fault} (hx : x s = .error f s) : x.Does strict s Q := by
  intro _
  rw [hx]
  exact ⟨.refl s, trivial⟩

end StoreM.Does

/-- A value that may be missing is not dangling. -/
def Value.LiveIfAny (n : Census) (o : Option Value) : Prop := ∀ v ∈ o, v.Live n

lemma Value.LiveIfAny.some {n : Census} {v : Value} (h : v.Live n) : LiveIfAny n (some v) := by
  rintro w ⟨⟩
  exact h

lemma Value.LiveIfAny.none {n : Census} : LiveIfAny n none := nofun

/-- A value that may be missing, or else null. -/
lemma Value.LiveIfAny.getD {n : Census} {o : Option Value} (h : LiveIfAny n o) :
    (o.getD .null).Live n := by
  cases o with
  | none => trivial
  | some v => exact h v rfl

variable {strict : Bool} {s : Store}

namespace StoreM

/-! ### Scopes -/

lemma childScope_does {r : Ref .scope} (hr : r.Live s.census) :
    (childScope r).Does strict s fun s' q => q.Live s'.census ∧ ∀ x, s'.isConstant q x = false := by
  refine .edit rfl (.newScope ?_) ⟨s.live_next _, fun x => ?_⟩
  · rintro q ⟨⟩
    exact hr
  · refine isConstant_of_no_bindings ?_ x
    exact congrArg Scope.bindings (Arena.get_push_size s.scopes ⟨.empty, some r⟩)

lemma declare_does {r : Ref .scope} (hr : r.Live s.census) (x : String) {v : Value}
    (hv : v.Live s.census) (constant : Bool) :
    (declare r x v constant).Does strict s fun _ _ => True := by
  by_cases h : s.holds r x = true
  · exact .refused (if_pos h)
  · exact .edit (if_neg h) (.declare hr hv (eq_false_of_ne_true h)) trivial

lemma declareAll_does {r : Ref .scope} (hr : r.Live s.census) (constant : Bool)
    {bindings : List (String × Value)} (hb : ∀ b ∈ bindings, b.2.Live s.census) :
    (declareAll r constant bindings).Does strict s fun _ _ => True := by
  induction bindings generalizing s with
  | nil => exact .pure trivial
  | cons b rest ih =>
    refine .bind (declare_does hr b.1 (hb b List.mem_cons_self) constant) fun _ s' _ hn _ => ?_
    exact ih (hr.mono hn) fun b hb' => (hb b (List.mem_cons_of_mem _ hb')).mono hn

/-- Parameters are bound in a scope that has no constants. -/
lemma bindParameters_does {r : Ref .scope} (hr : r.Live s.census)
    (hc : ∀ x, s.isConstant r x = false) {bindings : List (String × Value)}
    (hb : ∀ b ∈ bindings, b.2.Live s.census) :
    (bindParameters r bindings).Does strict s fun _ _ => True := by
  induction bindings generalizing s with
  | nil => exact .pure trivial
  | cons b rest ih =>
    have hbind : bindParameter r b.1 b.2 s = .ok () (s.writeBinding r b.1 ⟨b.2, false⟩) := by
      unfold bindParameter
      rw [hc b.1]
    refine .bind (P := fun s' _ => ∀ x, s'.isConstant r x = false) ?_ fun _ s' _ hn hc' => ?_
    · exact .edit hbind (.bindParameter hr (hb b List.mem_cons_self) (hc b.1))
        (isConstant_writeBinding hc b.1 b.2)
    · exact ih (hr.mono hn) hc' fun b hb' => (hb b (List.mem_cons_of_mem _ hb')).mono hn

lemma assign_does {r : Ref .scope} (hr : r.Live s.census) (x : String) {v : Value}
    (hv : v.Live s.census) : (assign r x v).Does strict s fun _ _ => True := by
  refine .of_sound fun hs => ?_
  unfold assign
  cases hq : s.holder? r x with
  | none => exact .refused (by rw [hq])
  | some q =>
    have hlive : q.Live s.census := hs.chain_live hr q (List.mem_of_find?_eq_some hq)
    have hholds : s.holds q x = true := List.find?_some (p := (s.holds · x)) hq
    by_cases hc : s.isConstant q x = true
    · refine .refused (f := .constantVariable x) ?_
      simp only [hq, if_pos hc]
    · refine .edit (a := ()) ?_ (.assign hlive hv hholds (eq_false_of_ne_true hc)) trivial
      simp only [hq, if_neg hc]

/-! ### Lists and dictionaries -/

lemma newList_does {vs : List Value} (hvs : ∀ v ∈ vs, v.Live s.census) :
    (newList vs).Does strict s fun s' r => r.Live s'.census :=
  .edit rfl (.newList hvs) (s.live_next _)

lemma newDict_does {d : Dict} (hd : ∀ e ∈ d.entries, e.2.1.hashKey? = some e.1 ∧
    e.2.1.Live s.census ∧ e.2.2.Live s.census) :
    (newDict d).Does strict s fun s' r => r.Live s'.census :=
  .edit rfl (.newDict hd) (s.live_next _)

lemma setItem_does {subject index v : Value} (hsub : subject.Live s.census)
    (hi : index.Live s.census) (hv : v.Live s.census) :
    (setItem subject index v).Does strict s fun _ _ => True := by
  refine .of_sound fun hs => ?_
  cases subject with
  | list r =>
    show (setListItem r index v).Does strict s _
    unfold setListItem
    cases hk : s.listIndex r index with
    | error f => exact .refused (by rw [hk])
    | ok place =>
      cases place with
      | none => exact .refused (by rw [hk])
      | some k =>
        refine .edit (by rw [hk]) (.setList hsub fun w hw => ?_) trivial
        rcases List.mem_or_eq_of_mem_set hw with hw | rfl
        · exact hs.element_live hsub hw
        · exact hv
  | dict r =>
    show (setDictItem r index v).Does strict s _
    unfold setDictItem
    cases hk : index.hashKey? with
    | none => exact .refused rfl
    | some hash => exact .edit rfl (.setItem hsub hi hv hk) trivial
  | _ => exact .refused rfl

/-! ### Functions and classes -/

lemma newFunction_does {f : Closure} (hscope : f.scope.Live s.census)
    (howner : ∀ c ∈ f.owner, c.Live s.census) (hbody : Admits strict (Stmt.allConform f.body)) :
    (newFunction f).Does strict s fun s' r => r.Live s'.census ∧ s'.function r = f :=
  .edit rfl (.newFunction hscope howner hbody) ⟨s.live_next _, Arena.get_push_size ..⟩

lemma newClass_does (x : String) {parent : Ref .cls} (hp : parent.Live s.census) :
    (newClass (Class.blank x (some parent))).Does strict s fun s' c => c.Live s'.census :=
  .edit rfl (.newClass hp) (s.live_next _)

lemma addMember_does {c : Ref .cls} (hc : c.Live s.census) (x : String) {default : Option Value}
    (hd : ∀ v ∈ default, v.Live s.census) (constant : Bool) :
    (addMember c x default constant).Does strict s fun _ _ => True := by
  by_cases h : (s.cls c).members.contains x = true
  · exact .refused (if_pos h)
  · exact .edit (if_neg h) (.addMember hc hd (eq_false_of_ne_true h)) trivial

lemma addClassMember_does {c : Ref .cls} (hc : c.Live s.census) (x : String) {v : Value}
    (hv : v.Live s.census) (constant : Bool) :
    (addClassMember c x v constant).Does strict s fun _ _ => True := by
  by_cases h : (s.cls c).classMembers.contains x = true
  · exact .refused (if_pos h)
  · exact .edit (if_neg h) (.addClassMember hc hv (eq_false_of_ne_true h)) trivial

lemma addMethod_does {c : Ref .cls} (hc : c.Live s.census) {x : String} {f : Ref .function}
    (hf : f.Live s.census) (ho : (s.function f).owner = some c)
    (hx : (s.function f).name.getD "" = x) : (addMethod c x f).Does strict s fun _ _ => True := by
  by_cases h : (s.cls c).methods.contains x = true
  · exact .refused (if_pos h)
  · exact .edit (if_neg h) (.addMethod hc hf ho hx (eq_false_of_ne_true h)) trivial

lemma addClassMethod_does {c : Ref .cls} (hc : c.Live s.census) {x : String} {f : Ref .function}
    (hf : f.Live s.census) (ho : (s.function f).owner = some c)
    (hx : (s.function f).name.getD "" = x) :
    (addClassMethod c x f).Does strict s fun _ _ => True := by
  by_cases h : (s.cls c).classMethods.contains x = true
  · exact .refused (if_pos h)
  · exact .edit (if_neg h) (.addClassMethod hc hf ho hx (eq_false_of_ne_true h)) trivial

lemma setClassAttribute_does {c : Ref .cls} (hc : c.Live s.census) (x : String) {v : Value}
    (hv : v.Live s.census) : (setClassAttribute c x v).Does strict s fun _ _ => True := by
  refine .of_sound fun hs => ?_
  unfold setClassAttribute
  cases hq : (s.lineage c).find? fun d => (s.cls d).classMembers.contains x with
  | none => exact .refused (by rw [hq])
  | some owner =>
    have hlive := hs.lineage_live hc owner (List.mem_of_find?_eq_some hq)
    have hheld := List.find?_some hq
    by_cases hk : ((s.cls owner).classMembers.find? x).any (·.constant) = true
    · refine .refused (f := .constantAttribute x) ?_
      simp only [hq, if_pos hk]
    · refine .edit (a := ()) ?_ (.setClassMember hlive hv hheld (eq_false_of_ne_true hk)) trivial
      simp only [hq, if_neg hk]

/-! ### Bound methods and attributes -/

lemma newBound_does {b : Bound} (hv : ∀ v ∈ Cell.values (k := .bound) b, v.Live s.census)
    (hl : ∀ l ∈ Cell.links (k := .bound) b, l.2.Live s.census) (hb : s.Binds b) :
    (newBound b).Does strict s fun s' r => r.Live s'.census :=
  .edit rfl (.newBound hv hl hb) (s.live_next _)

/-- A method that is bound to one value and linked to one cell. -/
lemma newBound_linked_does {b : Bound} {v : Value} {l : Σ j, Ref j}
    (hbv : Cell.values (k := .bound) b = [v]) (hbl : Cell.links (k := .bound) b = [l])
    (hv : v.Live s.census) (hl : l.2.Live s.census) (hb : s.Binds b) :
    (newBound b).Does strict s fun s' r => r.Live s'.census := by
  refine newBound_does (fun w hw => ?_) (fun q hq => ?_) hb
  · rw [hbv] at hw
    obtain rfl := List.mem_singleton.mp hw
    exact hv
  · rw [hbl] at hq
    obtain rfl := List.mem_singleton.mp hq
    exact hl

/-- A new bound method as an attribute. -/
lemma boundAttribute_does {b : Bound}
    (h : (newBound b).Does strict s fun s' r => r.Live s'.census) :
    (do Pure.pure (some (.bound (← newBound b))) : StoreM (Option Value)).Does strict s
      fun s' => Value.LiveIfAny s'.census :=
  .bind h fun _ _ _ _ hr => .pure (.some hr)

lemma classAttribute?_does {c : Ref .cls} (hc : c.Live s.census) (x : String) :
    (classAttribute? c x).Does strict s fun s' => Value.LiveIfAny s'.census := by
  refine .of_sound fun hs => .get_bind ?_
  cases h : s.findSlot? c x with
  | none => exact .pure .none
  | some slot =>
    have hslot := hs.findSlot?_live hc h
    cases slot with
    | member b => exact .pure (.some hslot)
    | method f =>
      have hb : s.Binds (.classMethod c f) := .classMethod (.classMethod h)
      exact boundAttribute_does (newBound_linked_does rfl rfl hc hslot hb)

lemma instanceAttribute?_does {r : Ref .inst} (hr : r.Live s.census) (x : String) :
    (instanceAttribute? r x).Does strict s fun s' => Value.LiveIfAny s'.census := by
  refine .of_sound fun hs => .get_bind ?_
  dsimp only
  cases h : (s.inst r).members.find? x with
  | some o =>
    cases o with
    | some v => exact .pure (.some (hs.member_live hr (OrderedMap.mem_values_of_find? h)))
    | none => exact .throw _
  | none =>
    cases hf : s.findMethod? (s.inst r).cls x with
    | some f =>
      have hlive := hs.findMethod?_live (hs.class_live hr) hf
      have hb : s.Binds (.method r f) := .method (.method hf)
      exact boundAttribute_does (newBound_linked_does rfl rfl hr hlive hb)
    | none =>
      refine .pure ?_
      split
      · exact .some (hs.class_live hr)
      · exact .none

lemma superAttribute?_does {b : Ref .bound} (hb : b.Live s.census) {owner : Ref .cls}
    {receiver : Receiver} (hsuper : s.bound b = .super owner receiver) (x : String) :
    (superAttribute? owner receiver x).Does strict s fun s' => Value.LiveIfAny s'.census := by
  refine .of_sound fun hs => .get_bind ?_
  have hcell := hs.bound_sound hb hsuper
  have ho : owner.Live s.census := hcell.links ⟨.cls, owner⟩ List.mem_cons_self
  have hr : receiver.value.Live s.census := hcell.values _ List.mem_cons_self
  have hcls : (s.receiverClass receiver).Live s.census := by
    cases receiver with
    | inst r => exact hs.class_live hr
    | cls c => exact hr
  cases h : s.findSuper? owner receiver x with
  | none => exact .pure .none
  | some found =>
    have hfound := hs.findSuper?_live ho h
    cases found with
    | inl f =>
      cases receiver with
      | inst this =>
        have hbinds : s.Binds (.method this f) := .method (.superMethod hb hsuper h)
        exact boundAttribute_does (newBound_linked_does rfl rfl hr hfound hbinds)
      | cls c => exact .pure .none
    | inr slot =>
      cases slot with
      | member b => exact .pure (.some hfound)
      | method f =>
        have hbinds : s.Binds (.classMethod (s.receiverClass receiver) f) :=
          .classMethod (.superClassMethod hb hsuper h)
        exact boundAttribute_does (newBound_linked_does rfl rfl hcls hfound hbinds)

lemma moduleAttribute?_does {r : Ref .module} (hr : r.Live s.census) (x : String) :
    (moduleAttribute? r x).Does strict s fun s' => Value.LiveIfAny s'.census := by
  refine .of_sound fun hs => .look rfl fun v hv => ?_
  split at hv
  · exact hs.lookup?_live (hs.moduleScope_live hr) hv
  · cases hv

lemma infoAttribute_does (r : Ref .module) (x : String) :
    (infoAttribute r x).Does strict s fun s' v => v.Live s'.census := by
  unfold infoAttribute
  by_cases h : x = "filename"
  · exact .look (if_pos h) (Value.live_string _)
  · exact .refused (if_neg h)

lemma methodAttribute?_live {n : Census} (method x : String) :
    Value.LiveIfAny n (methodAttribute? method x) := by
  unfold methodAttribute?
  split
  · exact .some (Value.live_string _)
  · exact .none

lemma attribute?_does {subject : Value} (hsub : subject.Live s.census) (x : String) :
    (attribute? subject x).Does strict s fun s' => Value.LiveIfAny s'.census := by
  refine .of_sound fun hs => ?_
  unfold attribute?
  cases subject with
  | str t =>
    dsimp only
    split
    · refine boundAttribute_does (newBound_does (fun v hv => ?_) nofun (.text _ t))
      obtain rfl := List.mem_singleton.mp hv
      exact hsub
    · exact .pure .none
  | list r =>
    dsimp only
    split
    · refine boundAttribute_does (newBound_does (fun v hv => ?_) nofun (.list _ r))
      obtain rfl := List.mem_singleton.mp hv
      exact hsub
    · exact .pure .none
  | dict r =>
    refine .get_bind (.pure fun v hv => ?_)
    unfold Store.dictAttribute? at hv
    split at hv
    · next h =>
      obtain ⟨⟩ := hv
      exact (hs.entry_live hsub (OrderedMap.mem_values_of_find? h)).2
    · cases hv
  | cls r => exact classAttribute?_does hsub x
  | inst r => exact instanceAttribute?_does hsub x
  | bound r =>
    refine .get_bind ?_
    cases hb : s.bound r with
    | text m t => exact .pure (methodAttribute?_live m.name x)
    | list m r => exact .pure (methodAttribute?_live m.name x)
    | super owner receiver => exact superAttribute?_does hsub hb x
    | method this f => exact .pure .none
    | classMethod c f => exact .pure .none
  | module r => exact moduleAttribute?_does hsub x
  | info r => exact .bind (infoAttribute_does r x) fun _ _ _ _ hv => .pure (.some hv)
  | _ => exact .pure .none

lemma getAttribute_does {subject : Value} (hsub : subject.Live s.census) (x : String) :
    (getAttribute subject x).Does strict s fun s' v => v.Live s'.census := by
  refine .bind (attribute?_does hsub x) fun o s' _ _ ho => ?_
  cases o with
  | some v => exact .pure (ho v rfl)
  | none => exact .get_bind (.throw _)

lemma setInstanceAttribute_does {r : Ref .inst} (hr : r.Live s.census) (x : String) {v : Value}
    (hv : v.Live s.census) : (setInstanceAttribute r x v).Does strict s fun _ _ => True := by
  unfold setInstanceAttribute
  by_cases hx : (s.inst r).members.contains x = true
  · by_cases hk : (!(s.inst r).initializing && s.isConstantMember (s.inst r).cls x) = true
    · exact .refused (f := .constantAttribute x) (by simp [hx, hk])
    · refine .edit (a := ()) ?_ (.setMember hr hv hx ?_) trivial
      · simp only [hx, hk, Bool.not_true, Bool.false_eq_true, if_false]
      · cases hi : (s.inst r).initializing with
        | true => exact .inl rfl
        | false => exact .inr (by simpa [hi] using hk)
  · exact .refused (f := .noAttribute (s.cls (s.inst r).cls).name x) (by simp [hx])

lemma setModuleAttribute_does {r : Ref .module} (hr : r.Live s.census) (x : String) {v : Value}
    (hv : v.Live s.census) : (setModuleAttribute r x v).Does strict s fun _ _ => True := by
  refine .of_sound fun hs => .get_bind (.ite (fun _ => ?_) fun _ => .throw _)
  exact assign_does (hs.moduleScope_live hr) x hv

lemma trySetAttribute_does {subject : Value} (hsub : subject.Live s.census) (x : String)
    {v : Value} (hv : v.Live s.census) :
    (trySetAttribute subject x v).Does strict s fun _ _ => True := by
  unfold trySetAttribute
  cases subject with
  | cls c => exact .bind (setClassAttribute_does hsub x hv) fun _ _ _ _ _ => .pure trivial
  | inst r => exact .bind (setInstanceAttribute_does hsub x hv) fun _ _ _ _ _ => .pure trivial
  | bound r =>
    refine .get_bind ?_
    cases s.bound r with
    | super owner receiver => exact .throw _
    | _ => exact .pure trivial
  | module r => exact .bind (setModuleAttribute_does hsub x hv) fun _ _ _ _ _ => .pure trivial
  | info r => exact .throw _
  | _ => exact .pure trivial

lemma setAttribute_does {subject : Value} (hsub : subject.Live s.census) (x : String)
    {v : Value} (hv : v.Live s.census) :
    (setAttribute subject x v).Does strict s fun _ _ => True := by
  refine .bind (trySetAttribute_does hsub x hv) fun done s' _ _ _ => ?_
  cases done with
  | true => exact .pure trivial
  | false => exact .get_bind (.throw _)

/-! ### Instances and modules -/

lemma newInstance_does {c : Ref .cls} (hc : c.Live s.census) :
    (newInstance c).Does strict s fun s' r => r.Live s'.census ∧ (s'.inst r).cls = c :=
  .edit rfl (.newInst hc) ⟨s.live_next _, congrArg Instance.cls (Arena.get_push_size ..)⟩

lemma finishInstance_does {r : Ref .inst} (hr : r.Live s.census) :
    (finishInstance r).Does strict s fun _ _ => True := by
  unfold finishInstance
  cases h : (s.inst r).members.entries.find? (·.2.isNone) with
  | some e =>
    exact .refused (f := .pendingMember (s.cls (s.inst r).cls).name e.1) (by simp only [h])
  | none =>
    refine .edit (a := ()) (by simp only [h]) (.finish hr fun e he => ?_) trivial
    simpa [Option.isSome_iff_ne_none] using List.find?_eq_none.mp h e he

lemma newModuleAt_does (path : String) :
    (newModuleAt path).Does strict s fun s' r => r.Live s'.census ∧ (s'.module r).path = path := by
  refine .bind (P := fun s' r => r.Live s'.census) ?_ fun scope s₁ _ _ hscope => ?_
  · exact .edit rfl (.newScope nofun) (s.live_next _)
  refine .bind (P := fun s' r => r.Live s'.census ∧ (s'.module r).path = path) ?_
    fun r s₂ hs₂ hn hr => ?_
  · refine .edit rfl (.newModule hscope) ⟨s₁.live_next _, ?_⟩
    exact congrArg Module.path (Arena.get_push_size ..)
  refine .bind (P := fun s' _ => r.Live s'.census ∧ (s'.module r).path = path) ?_
    fun _ s₃ _ _ hr => .pure hr
  by_cases h : s₂.holds scope "wei" = true
  · exact .refused (if_pos h)
  · have hedit : s₂.Edit strict (s₂.writeBinding scope "wei" ⟨.info r, true⟩) :=
      .declare (hscope.mono hn) hr.1 (eq_false_of_ne_true h)
    exact .edit (if_neg h) hedit ⟨hr.1.mono (hedit.census_le hs₂), hr.2⟩

lemma exportNames_does {r : Ref .module} (hr : r.Live s.census) (names : List String) :
    (exportNames r names).Does strict s fun _ _ => True := by
  induction names generalizing s with
  | nil => exact .pure trivial
  | cons x rest ih =>
    refine .get_bind (.get_bind (.ite (fun hx => ?_) fun _ => .throw _))
    refine .bind (P := fun _ _ => True) ?_ fun _ s' _ hn _ => ih (hr.mono hn)
    exact .edit rfl (.exportName hr hx) trivial

end StoreM

/-! ### Methods of strings and lists -/

/-- What a method of a string answers is not dangling. -/
def TextMethod.Answer.Live (n : Census) : TextMethod.Answer → Prop
  | .value v => v.Live n
  | .list elements => ∀ v ∈ elements, v.Live n

lemma Argument.list?_live {args : List Value} (ha : ∀ v ∈ args, v.Live s.census) {place : Nat}
    {r : Ref .list} (h : list? s args place = .ok (some r)) : r.Live s.census := by
  unfold list? at h
  split at h
  · cases h
  · next hr =>
    obtain ⟨⟩ := h
    exact ha _ (List.mem_of_getElem? hr)
  · cases h

lemma Argument.onlyList_live {args : List Value} (ha : ∀ v ∈ args, v.Live s.census)
    {r : Ref .list} (h : onlyList s args = .ok r) : r.Live s.census := by
  obtain ⟨v, hv, h'⟩ := exists_of_bind_eq_ok h
  obtain rfl := eq_of_only hv
  split at h'
  · obtain ⟨⟩ := h'
    exact ha _ List.mem_cons_self
  · cases h'

lemma TextMethod.answer_live (hs : s.Sound strict) {this : Text} (hthis : this.Over)
    {args : List Value} (hargs : ∀ v ∈ args, v.Live s.census) {method : TextMethod} {a : Answer}
    (h : answer s this args method = .ok a) : a.Live s.census := by
  cases method with
  | find =>
    obtain ⟨w, -, h⟩ := exists_of_bind_eq_ok h
    obtain ⟨⟩ := h
    unfold foundAt
    split <;> trivial
  | format =>
    obtain ⟨v, hv, h⟩ := exists_of_bind_eq_ok h
    obtain ⟨⟩ := h
    unfold filled at hv
    split at hv
    · cases hv
    · next pieces hpieces =>
      split at hv
      · obtain ⟨⟩ := hv
        refine .fill (Text.Over.template? hpieces hthis) fun t ht => ?_
        obtain ⟨v, hv, rfl⟩ := List.mem_map.mp ht
        exact hs.render_over (hargs v hv)
      · cases hv
  | join =>
    obtain ⟨r, hr, h⟩ := exists_of_bind_eq_ok h
    obtain ⟨⟩ := h
    refine .intercalate hthis fun t ht => ?_
    obtain ⟨v, hv, rfl⟩ := List.mem_map.mp ht
    exact hs.render_over (hs.element_live (Argument.onlyList_live hargs hr) hv)
  | lower =>
    obtain ⟨_, -, h⟩ := exists_of_bind_eq_ok h
    obtain ⟨⟩ := h
    exact hthis.lower
  | upper =>
    obtain ⟨_, -, h⟩ := exists_of_bind_eq_ok h
    obtain ⟨⟩ := h
    exact hthis.upper
  | strip =>
    obtain ⟨_, -, h⟩ := exists_of_bind_eq_ok h
    obtain ⟨⟩ := h
    exact hthis.trimBoth _
  | split =>
    obtain ⟨vs, hvs, h⟩ := exists_of_bind_eq_ok h
    obtain ⟨⟩ := h
    obtain ⟨-, -, hvs⟩ := exists_of_bind_eq_ok hvs
    obtain ⟨_, -, hvs⟩ := exists_of_bind_eq_ok hvs
    obtain ⟨_, -, hvs⟩ := exists_of_bind_eq_ok hvs
    dsimp only at hvs
    split at hvs
    · cases hvs
    · obtain ⟨⟩ := hvs
      intro v hv
      obtain ⟨piece, hpiece, rfl⟩ := List.mem_map.mp hv
      exact hthis.split _ _ piece hpiece
  | _ =>
    obtain ⟨_, -, h⟩ := exists_of_bind_eq_ok h
    obtain ⟨⟩ := h
    trivial

lemma TextMethod.call_does (method : TextMethod) {this : Text} (hthis : this.Over)
    {args : List Value} (hargs : ∀ v ∈ args, v.Live s.census) :
    (method.call this args).Does strict s fun s' v => v.Live s'.census := by
  refine .of_sound fun hs => .get_bind ?_
  cases h : answer s this args method with
  | error f => exact .throw f
  | ok a =>
    have ha : a.Live s.census := answer_live hs hthis hargs h
    cases a with
    | value v => exact .pure ha
    | list elements => exact .bind (StoreM.newList_does ha) fun _ _ _ _ hr => .pure hr

lemma ListMethod.change_live (hs : s.Sound strict) {elements args : List Value}
    (he : ∀ v ∈ elements, v.Live s.census) (ha : ∀ v ∈ args, v.Live s.census)
    {method : ListMethod} {c : Change} (h : change s elements args method = .ok c) :
    (∀ v ∈ c.elements, v.Live s.census) ∧ Value.LiveIfAny s.census c.answer := by
  cases method with
  | append =>
    unfold change at h
    dsimp only at h
    split at h
    · cases h
    · obtain ⟨⟩ := h
      exact ⟨fun v hv => (List.mem_append.mp hv).elim (he v) (ha v), .none⟩
  | extend =>
    obtain ⟨_, -, h⟩ := exists_of_bind_eq_ok h
    obtain ⟨more, hmore, h⟩ := exists_of_bind_eq_ok h
    obtain ⟨⟩ := h
    refine ⟨fun v hv => (List.mem_append.mp hv).elim (he v) fun hv => ?_, .none⟩
    cases more with
    | none => cases hv
    | some r => exact hs.element_live (Argument.list?_live ha hmore) hv
  | insert =>
    obtain ⟨_, -, h⟩ := exists_of_bind_eq_ok h
    obtain ⟨position, -, h⟩ := exists_of_bind_eq_ok h
    obtain ⟨⟩ := h
    refine ⟨fun v hv => ?_, .none⟩
    rcases List.eq_or_mem_of_mem_insertIdx hv with rfl | hv
    · exact Value.live_getD ha 1
    · exact he v hv
  | pop =>
    obtain ⟨_, -, h⟩ := exists_of_bind_eq_ok h
    obtain ⟨position, -, h⟩ := exists_of_bind_eq_ok h
    unfold popped at h
    split at h
    · cases h
    · split at h
      · obtain ⟨⟩ := h
        exact ⟨fun v hv => he v (List.mem_of_mem_eraseIdx hv), .some (Value.live_getD he _)⟩
      · cases h
  | remove =>
    obtain ⟨value, -, h⟩ := exists_of_bind_eq_ok h
    unfold removed at h
    split at h
    · obtain ⟨⟩ := h
      exact ⟨fun v hv => he v (List.mem_of_mem_eraseIdx hv), .none⟩
    · cases h
  | reverse =>
    obtain ⟨_, -, h⟩ := exists_of_bind_eq_ok h
    obtain ⟨⟩ := h
    exact ⟨fun v hv => he v (List.mem_reverse.mp hv), .none⟩

lemma ListMethod.call_does (method : ListMethod) {this : Ref .list} (hthis : this.Live s.census)
    {args : List Value} (hargs : ∀ v ∈ args, v.Live s.census) :
    (method.call this args).Does strict s fun s' v => v.Live s'.census := by
  refine .of_sound fun hs => ?_
  unfold ListMethod.call
  cases h : change s (s.list this) args method with
  | error f => exact .refused (by rw [h])
  | ok c =>
    obtain ⟨helements, hanswer⟩ := change_live hs (fun v hv => hs.element_live hthis hv) hargs h
    have hedit : s.Edit strict (s.setList this c.elements) := .setList hthis helements
    have hn := hedit.census_le hs
    refine .edit (by rw [h]) hedit ?_
    cases hc : c.answer with
    | none => exact hthis.mono hn
    | some v => exact (hanswer v hc).mono hn

/-! ### Operators and builtin functions -/

lemma UnaryOp.apply_live {n : Census} {op : UnaryOp} {v w : Value} (h : op.apply s v = .ok w) :
    w.Live n := by
  unfold UnaryOp.apply at h
  split at h
  · obtain ⟨⟩ := h
    trivial
  · obtain ⟨⟩ := h
    trivial
  · obtain ⟨⟩ := h
    trivial
  · obtain ⟨⟩ := h
    trivial
  · cases h

lemma Value.live_of_map_integer {n : Census} {r : Except Fault Int} {w : Value}
    (h : r.map Value.integer = .ok w) : w.Live n := by
  cases r with
  | error f => cases h
  | ok z =>
    obtain ⟨⟩ := h
    trivial

lemma BinaryOp.onIntegers?_live {n : Census} {op : BinaryOp} {a b : Int64} {w : Value}
    (h : op.onIntegers? a b = some (.ok w)) : w.Live n := by
  cases op with
  | other symbol => cases h
  | div | mod | shiftLeft | shiftRight =>
    exact Value.live_of_map_integer (Option.some_inj.mp h)
  | _ =>
    obtain ⟨⟩ := h
    trivial

lemma BinaryOp.onTexts?_live {n : Census} {op : BinaryOp} {a b : Text} (ha : a.Over)
    (hb : b.Over) {w : Value} (h : op.onTexts? a b = some (.ok w)) : w.Live n := by
  cases op with
  | add =>
    obtain ⟨⟩ := h
    exact ha.append hb
  | _ => cases h

lemma BinaryOp.apply_live {n : Census} {op : BinaryOp} {v w u : Value} (hv : v.Live n)
    (hw : w.Live n) (h : op.apply s v w = .ok u) : u.Live n := by
  have onValues : op.onValues s v w = .ok u → u.Live n := by
    intro h
    unfold BinaryOp.onValues at h
    split at h
    · obtain ⟨⟩ := h
      trivial
    · obtain ⟨⟩ := h
      trivial
    · cases h
  unfold BinaryOp.apply at h
  dsimp only at h
  split at h
  · next a b =>
    cases hi : op.onIntegers? a b with
    | none =>
      rw [hi] at h
      exact onValues h
    | some r =>
      rw [hi] at h
      exact onIntegers?_live (hi.trans (congrArg some h))
  · next a b =>
    cases ht : op.onTexts? a b with
    | none =>
      rw [ht] at h
      exact onValues h
    | some r =>
      rw [ht] at h
      exact onTexts?_live hv hw (ht.trans (congrArg some h))
  · exact onValues h

lemma Builtin.answer_live {n : Census} {b : Builtin} {args : List Value} {v : Value}
    (h : b.answer s args = .ok v) : v.Live n := by
  cases b with
  | print =>
    obtain ⟨⟩ := h
    trivial
  | len =>
    obtain ⟨w, -, h⟩ := exists_of_bind_eq_ok h
    unfold Builtin.length at h
    split at h
    · obtain ⟨⟩ := h
      trivial
    · obtain ⟨⟩ := h
      trivial
    · obtain ⟨⟩ := h
      trivial
    · cases h
  | abs =>
    obtain ⟨_, -, h⟩ := exists_of_bind_eq_ok h
    obtain ⟨⟩ := h
    trivial
  | _ =>
    obtain ⟨_, -, h⟩ := exists_of_bind_eq_ok h
    obtain ⟨⟩ := h
    exact Value.live_string _

/-! ### Texts that the host encodes -/

namespace Regime

variable {R : Regime} {n : Census}

/-- A text that has no UTF-8 form is to be reckoned with, if there is one. -/
lemma crash_of_encodeText {t : Text} (ht : t.Over) {c : Crash} (h : t.encode = .error c) :
    R.crash c := by
  unfold Text.encode at h
  split at h
  · cases h
  · next hplain =>
    obtain ⟨⟩ := h
    exact R.encodes.resolve_left fun hA => hplain (ht.isPlain hA)

lemma crash_of_encode {v : Value} (hv : v.Live n) {c : Crash} (h : v.encode = .error c) :
    R.crash c := by
  cases v with
  | str t =>
    change t.encode.map _ = _ at h
    cases ht : t.encode with
    | ok s =>
      rw [ht] at h
      cases h
    | error d =>
      rw [ht] at h
      obtain ⟨⟩ := h
      exact crash_of_encodeText hv ht
  | _ => cases h

lemma crash_of_encodeIndex {v i : Value} (hi : i.Live n) {c : Crash}
    (h : i.encodeIndex v = .error c) : R.crash c := by
  cases v with
  | dict r => exact crash_of_encode hi h
  | _ => cases h

end Regime

lemma Builtin.call_does {R : Regime} (b : Builtin) {m : Machine} {args : List Value}
    (hargs : ∀ v ∈ args, v.Live m.census) :
    (Eval.onWorld (b.call args)).Does R m fun s' v => v.Live s'.census := by
  intro hm
  rw [Eval.onWorld_eq]
  unfold Builtin.call
  dsimp only
  cases h : b.outcome m.world.store args with
  | ok v =>
    refine ⟨.single (.print _), ?_⟩
    unfold Builtin.outcome at h
    split at h
    · cases h
    · next hv =>
      split at h
      · obtain ⟨⟩ := h
        exact answer_live hv
      · cases h
    · next hv =>
      obtain ⟨⟩ := h
      exact answer_live hv
  | error e =>
    refine ⟨.single (.print _), ?_⟩
    unfold Builtin.outcome at h
    split at h
    · obtain ⟨⟩ := h
      trivial
    · split at h
      · cases h
      · next hplain =>
        obtain ⟨⟩ := h
        refine R.encodes.resolve_left fun hA => hplain (List.all_eq_true.mpr fun t ht => ?_)
        obtain ⟨v, hv, rfl⟩ := List.mem_map.mp ht
        exact (hm.store.render_over (hargs v hv)).isPlain hA
    · cases h

end Wei
