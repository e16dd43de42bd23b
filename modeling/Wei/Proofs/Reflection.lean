import Wei.Eval.Call
import Wei.Proofs.Equivariance
import Wei.Proofs.Sound

/-!
Operations on a store are reflected in its image: with renamed arguments they come to the renamed
answer or to the same fault there, and leave an image of the store that they leave here.
-/

namespace Wei

/-! ### Matching results -/

/-- **Two results match** under a renaming: both are answers or both are exits, the one is the other
renamed, and the states that are left are related. -/
def Renaming.Matches (f : Renaming) {ε σ α : Type} [Renamable ε] [Renamable α]
    (I : σ → σ → Prop) : EStateM.Result ε σ α → EStateM.Result ε σ α → Prop
  | .ok a s, .ok b t => b = f.on a ∧ I s t
  | .error e s, .error d t => d = f.on e ∧ I s t
  | _, _ => False

namespace Renaming.Matches

variable {f : Renaming} {ε σ α β : Type} [Renamable ε] [Renamable α] [Renamable β]
variable {I : σ → σ → Prop} {s t : σ} {x y : EStateM ε σ α}

lemma cases {r r' : EStateM.Result ε σ α} (h : f.Matches I r r') :
    (∃ a s t, r = .ok a s ∧ r' = .ok (f.on a) t ∧ I s t) ∨
      ∃ e s t, r = .error e s ∧ r' = .error (f.on e) t ∧ I s t := by
  cases r with
  | ok a s =>
    cases r' with
    | ok b t =>
      obtain ⟨rfl, hI⟩ := h
      exact .inl ⟨a, s, t, rfl, rfl, hI⟩
    | error d t => cases h
  | error e s =>
    cases r' with
    | ok b t => cases h
    | error d t =>
      obtain ⟨rfl, hI⟩ := h
      exact .inr ⟨e, s, t, rfl, rfl, hI⟩

lemma bind {g k : α → EStateM ε σ β} (hx : f.Matches I (x s) (y t))
    (hg : ∀ a s' t', x s = .ok a s' → I s' t' → f.Matches I (g a s') (k (f.on a) t')) :
    f.Matches I ((x >>= g) s) ((y >>= k) t) := by
  show f.Matches I (EStateM.bind x g s) (EStateM.bind y k t)
  unfold EStateM.bind
  rcases hx.cases with ⟨a, s₁, t₁, hxs, hyt, hI⟩ | ⟨e, s₁, t₁, hxs, hyt, hI⟩
  · rw [hxs, hyt]
    exact hg a s₁ t₁ hxs hI
  · rw [hxs, hyt]
    exact ⟨rfl, hI⟩

/-- What is answered is put into something else. -/
lemma bind_pure {g k : α → β} (hx : f.Matches I (x s) (y t)) (hg : ∀ a, k (f.on a) = f.on (g a)) :
    f.Matches I ((x >>= fun a => pure (g a)) s) ((y >>= fun a => pure (k a)) t) :=
  hx.bind fun a _ _ _ hI => ⟨hg a, hI⟩

/-- The state is looked at first. -/
lemma get_bind {g k : σ → EStateM ε σ β} (h : f.Matches I (g s s) (k t t)) :
    f.Matches I ((get >>= g) s) ((get >>= k) t) := h

end Renaming.Matches

namespace Store.Image

variable {s t base : Store} {f : Renaming} {k : Kind} (h : Image f base s t)
include h

/-- A new cell. -/
lemma new (x : Cell k) :
    f.Matches (ε := Fault) (Image f base) (.ok (s.next k) (s.add x))
      (.ok (t.next k) (t.add (f.on x))) :=
  ⟨(h.on_next k).symm, h.add x⟩

/-! ### Scopes -/

lemma childScope (r : Ref .scope) :
    f.Matches (Image f base) (StoreM.childScope r s) (StoreM.childScope (f.on r) t) :=
  h.new (k := .scope) ⟨.empty, some r⟩

lemma writeBinding {r : Ref .scope} (hr : r.Live s.census) (x : String) (b : Binding) :
    Image f base (s.writeBinding r x b) (t.writeBinding (f.on r) x (f.on b)) := by
  have hscope : { t.scope (f.on r) with
      bindings := (t.scope (f.on r)).bindings.insert x (f.on b) } =
      f.on { s.scope r with bindings := (s.scope r).bindings.insert x b } := by
    rw [h.scope]
    exact congrArg (fun m => (⟨m, f.on (s.scope r).outer⟩ : Scope)) (OrderedMap.insert_on ..)
  unfold Store.writeBinding
  rw [hscope]
  exact h.write (k := .scope) hr _ h.object

lemma declare {r : Ref .scope} (hr : r.Live s.census) (x : String) (v : Value) (constant : Bool) :
    f.Matches (Image f base) (StoreM.declare r x v constant s)
      (StoreM.declare (f.on r) x (f.on v) constant t) := by
  unfold StoreM.declare
  rw [h.holds]
  split
  · exact ⟨rfl, h⟩
  · exact ⟨rfl, h.writeBinding hr x ⟨v, constant⟩⟩

omit h in
lemma live_of_declare {r q : Ref .scope} {x : String} {v : Value} {constant : Bool} {s' : Store}
    (hr : r.Live s.census) (hq : q.Live s.census)
    (hd : StoreM.declare r x v constant s = .ok () s') : q.Live s'.census := by
  unfold StoreM.declare at hd
  split at hd
  · cases hd
  · obtain ⟨⟩ := hd
    have hn : (s.writeBinding r x ⟨v, constant⟩).census = s.census := s.census_write hr _
    rw [hn]
    exact hq

lemma declareAll {r : Ref .scope} (hr : r.Live s.census) (constant : Bool)
    (bindings : List (String × Value)) :
    f.Matches (Image f base) (StoreM.declareAll r constant bindings s)
      (StoreM.declareAll (f.on r) constant (f.on bindings) t) := by
  induction bindings generalizing s t with
  | nil => exact ⟨rfl, h⟩
  | cons b rest ih =>
    refine .bind (h.declare hr b.1 b.2 constant) fun _ s' t' hd h' => ?_
    exact ih h' (live_of_declare hr hr hd)

lemma bindParameters {r : Ref .scope} (hr : r.Live s.census) (bindings : List (String × Value)) :
    f.Matches (Image f base) (StoreM.bindParameters r bindings s)
      (StoreM.bindParameters (f.on r) (f.on bindings) t) := by
  induction bindings generalizing s t with
  | nil => exact ⟨rfl, h⟩
  | cons b rest ih =>
    have hbind : f.Matches (Image f base) (StoreM.bindParameter r b.1 b.2 s)
        (StoreM.bindParameter (f.on r) b.1 (f.on b.2) t) := by
      unfold StoreM.bindParameter
      rw [h.isConstant]
      exact ⟨rfl, h.writeBinding hr b.1 ⟨b.2, s.isConstant r b.1⟩⟩
    refine .bind hbind fun _ s' t' hb h' => ih h' ?_
    obtain ⟨⟩ := hb
    have hn : (s.writeBinding r b.1 ⟨b.2, s.isConstant r b.1⟩).census = s.census :=
      s.census_write hr _
    rw [hn]
    exact hr

lemma assign (hs : s.Sound false) {r : Ref .scope} (hr : r.Live s.census) (x : String)
    (v : Value) :
    f.Matches (Image f base) (StoreM.assign r x v s) (StoreM.assign (f.on r) x (f.on v) t) := by
  unfold StoreM.assign
  rw [h.holder?]
  cases hq : s.holder? r x with
  | none => exact ⟨rfl, h⟩
  | some q =>
    have hlive : q.Live s.census := hs.chain_live hr q (List.mem_of_find?_eq_some hq)
    show f.Matches _ (if _ then _ else _) (if t.isConstant (f.on q) x then _ else _)
    rw [h.isConstant]
    split
    · exact ⟨rfl, h⟩
    · exact ⟨rfl, h.writeBinding hlive x ⟨v, false⟩⟩

/-! ### Lists and dictionaries -/

lemma setItem {subject : Value} (hsub : subject.Live s.census) (i v : Value) :
    f.Matches (Image f base) (StoreM.setItem subject i v s)
      (StoreM.setItem (f.on subject) (f.on i) (f.on v) t) := by
  have hlabel := congrArg Fault.notSubscriptable (h.label subject)
  cases subject with
  | list r =>
    show f.Matches (Image f base) (StoreM.setListItem r i v s)
      (StoreM.setListItem (f.on r) (f.on i) (f.on v) t)
    unfold StoreM.setListItem
    rw [h.listIndex]
    cases s.listIndex r i with
    | error e => exact ⟨rfl, h⟩
    | ok place =>
      cases place with
      | none => exact ⟨rfl, h⟩
      | some n =>
        have hset : (t.list (f.on r)).set n (f.on v) = f.on ((s.list r).set n v) := by
          rw [h.list]
          exact List.map_set.symm
        show f.Matches (Image f base) (.ok () (s.setList r ((s.list r).set n v)))
          (.ok () (t.setList (f.on r) ((t.list (f.on r)).set n (f.on v))))
        rw [hset]
        exact ⟨rfl, h.write (k := .list) hsub _ h.object⟩
  | dict r =>
    show f.Matches (Image f base) (StoreM.setDictItem r i v s)
      (StoreM.setDictItem (f.on r) (f.on i) (f.on v) t)
    unfold StoreM.setDictItem
    rw [hashKey?_on]
    cases i.hashKey? with
    | none => exact ⟨congrArg Fault.unhashable (h.label i), h⟩
    | some key =>
      have hinsert : (t.dict (f.on r)).insert key (f.on i, f.on v) =
          f.on ((s.dict r).insert key (i, v)) := by
        rw [h.dict]
        exact OrderedMap.insert_on f (s.dict r) key (i, v)
      show f.Matches (Image f base) (.ok () (s.setDict r ((s.dict r).insert key (i, v))))
        (.ok () (t.setDict (f.on r) ((t.dict (f.on r)).insert key (f.on i, f.on v))))
      rw [hinsert]
      exact ⟨rfl, h.write (k := .dict) hsub _ h.object⟩
  | _ => exact ⟨hlabel, h⟩

lemma callText (m : TextMethod) (this : Text) (args : List Value) :
    f.Matches (Image f base) (m.call this args s) (m.call this (f.on args) t) := by
  refine .get_bind ?_
  rw [h.textMethod]
  cases m.answer s this args with
  | error e => exact ⟨rfl, h⟩
  | ok answer =>
    cases answer with
    | value v => exact ⟨rfl, h⟩
    | list elements => exact .bind_pure (h.new (k := .list) elements) fun r => rfl

lemma callList (m : ListMethod) {this : Ref .list} (hthis : this.Live s.census)
    (args : List Value) :
    f.Matches (Image f base) (m.call this args s) (m.call (f.on this) (f.on args) t) := by
  unfold ListMethod.call
  rw [h.list, h.listMethod]
  cases ListMethod.change s (s.list this) args m with
  | error e => exact ⟨rfl, h⟩
  | ok c =>
    refine ⟨?_, h.write (k := .list) hthis c.elements h.object⟩
    show (f.on c.answer).getD (f.on (.list this)) = f.on (c.answer.getD (.list this))
    cases c.answer with
    | none => rfl
    | some v => rfl

/-! ### Classes -/

/-- Writing to a class other than `object`. -/
lemma setClass {r : Ref .cls} (hr : r.Live s.census) (hne : r ≠ Store.object) (c : Class) :
    Image f base (s.setClass r c) (t.setClass (f.on r) (f.on c)) := by
  refine h.write (k := .cls) hr c ?_
  exact (s.cls_setClass r Store.object c).trans ((if_neg hne).trans h.object)

/-- A declaration that a class refuses if it has one of the name already. -/
lemma declareIn {r : Ref .cls} (hr : r.Live s.census) (hne : r ≠ Store.object)
    {present present' : Bool} (hpresent : present' = present) (e : Fault) {c c' : Class}
    (hc : c' = f.on c) :
    f.Matches (Image f base) (if present then .error e s else .ok () (s.setClass r c))
      (if present' then .error e t else .ok () (t.setClass (f.on r) c')) := by
  subst hpresent hc
  split
  · exact ⟨rfl, h⟩
  · exact ⟨rfl, h.setClass hr hne c⟩

lemma addMember {r : Ref .cls} (hr : r.Live s.census) (hne : r ≠ Store.object) (x : String)
    (default : Option Value) (constant : Bool) :
    f.Matches (Image f base) (StoreM.addMember r x default constant s)
      (StoreM.addMember (f.on r) x (f.on default) constant t) := by
  have hinsert := OrderedMap.insert_on f (s.cls r).members x ⟨default, constant⟩
  unfold StoreM.addMember
  rw [h.cls]
  exact h.declareIn hr hne (OrderedMap.contains_on ..) _
    (congrArg (fun m => { f.on (s.cls r) with members := m }) hinsert)

lemma addClassMember {r : Ref .cls} (hr : r.Live s.census) (hne : r ≠ Store.object) (x : String)
    (v : Value) (constant : Bool) :
    f.Matches (Image f base) (StoreM.addClassMember r x v constant s)
      (StoreM.addClassMember (f.on r) x (f.on v) constant t) := by
  have hinsert := OrderedMap.insert_on f (s.cls r).classMembers x ⟨v, constant⟩
  unfold StoreM.addClassMember
  rw [h.cls]
  exact h.declareIn hr hne (OrderedMap.contains_on ..) _
    (congrArg (fun m => { f.on (s.cls r) with classMembers := m }) hinsert)

lemma addMethod {r : Ref .cls} (hr : r.Live s.census) (hne : r ≠ Store.object) (x : String)
    (g : Ref .function) :
    f.Matches (Image f base) (StoreM.addMethod r x g s)
      (StoreM.addMethod (f.on r) x (f.on g) t) := by
  have hinsert := OrderedMap.insert_on f (s.cls r).methods x g
  unfold StoreM.addMethod
  rw [h.cls]
  exact h.declareIn hr hne (OrderedMap.contains_on ..) _
    (congrArg (fun m => { f.on (s.cls r) with methods := m }) hinsert)

lemma addClassMethod {r : Ref .cls} (hr : r.Live s.census) (hne : r ≠ Store.object) (x : String)
    (g : Ref .function) :
    f.Matches (Image f base) (StoreM.addClassMethod r x g s)
      (StoreM.addClassMethod (f.on r) x (f.on g) t) := by
  have hinsert := OrderedMap.insert_on f (s.cls r).classMethods x g
  unfold StoreM.addClassMethod
  rw [h.cls]
  exact h.declareIn hr hne (OrderedMap.contains_on ..) _
    (congrArg (fun m => { f.on (s.cls r) with classMethods := m }) hinsert)

lemma setClassAttribute (hs : s.Sound false) {r : Ref .cls} (hr : r.Live s.census) (x : String)
    (v : Value) :
    f.Matches (Image f base) (StoreM.setClassAttribute r x v s)
      (StoreM.setClassAttribute (f.on r) x (f.on v) t) := by
  have hcontains (c : Ref .cls) :
      (t.cls (f.on c)).classMembers.contains x = (s.cls c).classMembers.contains x := by
    rw [h.cls]
    exact OrderedMap.contains_on ..
  have howner : (t.lineage (f.on r)).find? (fun c => (t.cls c).classMembers.contains x) =
      f.on ((s.lineage r).find? fun c => (s.cls c).classMembers.contains x) := by
    rw [h.lineage]
    exact f.find?_on hcontains _
  unfold StoreM.setClassAttribute
  rw [howner, h.className]
  cases hfound : (s.lineage r).find? fun c => (s.cls c).classMembers.contains x with
  | none => exact ⟨rfl, h⟩
  | some owner =>
    have hlive := hs.lineage_live hr owner (List.mem_of_find?_eq_some hfound)
    -- the class `object` declares nothing
    have hne : owner ≠ Store.object := by
      rintro rfl
      have hheld := List.find?_some hfound
      rw [h.object] at hheld
      cases hheld
    have hfind : (f.on (s.cls owner)).classMembers.find? x =
        f.on ((s.cls owner).classMembers.find? x) := OrderedMap.find?_on ..
    have hinsert : (f.on (s.cls owner)).classMembers.insert x ⟨f.on v, false⟩ =
        f.on ((s.cls owner).classMembers.insert x ⟨v, false⟩) :=
      OrderedMap.insert_on f (s.cls owner).classMembers x ⟨v, false⟩
    have hany : (f.on ((s.cls owner).classMembers.find? x)).any (·.constant) =
        ((s.cls owner).classMembers.find? x).any (·.constant) := by
      cases (s.cls owner).classMembers.find? x with
      | none => rfl
      | some b => rfl
    have hsome : f.on (some owner) = some (f.on owner) := rfl
    rw [hsome]
    dsimp only
    rw [h.cls, hfind, hany, hinsert]
    split
    · exact ⟨rfl, h⟩
    · exact ⟨rfl, h.setClass hlive hne _⟩

/-! ### Attributes -/

lemma boundAttribute (b : Bound) :
    f.Matches (Image f base)
      ((do pure (some (.bound (← StoreM.newBound b))) : StoreM (Option Value)) s)
      ((do pure (some (.bound (← StoreM.newBound (f.on b)))) : StoreM (Option Value)) t) :=
  .bind_pure (h.new (k := .bound) b) fun _ => rfl

lemma classAttribute? (r : Ref .cls) (x : String) :
    f.Matches (Image f base) (StoreM.classAttribute? r x s)
      (StoreM.classAttribute? (f.on r) x t) := by
  refine .get_bind ?_
  rw [h.findSlot?]
  cases s.findSlot? r x with
  | none => exact ⟨rfl, h⟩
  | some slot =>
    cases slot with
    | member b => exact ⟨rfl, h⟩
    | method g => exact h.boundAttribute (.classMethod r g)

lemma instanceAttribute? (r : Ref .inst) (x : String) :
    f.Matches (Image f base) (StoreM.instanceAttribute? r x s)
      (StoreM.instanceAttribute? (f.on r) x t) := by
  have hfind : (f.on (s.inst r)).members.find? x = f.on ((s.inst r).members.find? x) :=
    OrderedMap.find?_on ..
  have hcls : (f.on (s.inst r)).cls = f.on (s.inst r).cls := rfl
  refine .get_bind ?_
  rw [h.inst, hfind, hcls, h.className, h.findMethod?]
  cases (s.inst r).members.find? x with
  | some member =>
    cases member with
    | some v => exact ⟨rfl, h⟩
    | none => exact ⟨rfl, h⟩
  | none =>
    cases s.findMethod? (s.inst r).cls x with
    | some g => exact h.boundAttribute (.method r g)
    | none =>
      refine ⟨?_, h⟩
      split
      · rfl
      · rfl

lemma superAttribute? (owner : Ref .cls) (receiver : Receiver) (x : String) :
    f.Matches (Image f base) (StoreM.superAttribute? owner receiver x s)
      (StoreM.superAttribute? (f.on owner) (f.on receiver) x t) := by
  refine .get_bind ?_
  rw [h.findSuper?, h.receiverClass]
  cases s.findSuper? owner receiver x with
  | none => exact ⟨rfl, h⟩
  | some found =>
    cases found with
    | inl g =>
      cases receiver with
      | inst this => exact h.boundAttribute (.method this g)
      | cls c => exact ⟨rfl, h⟩
    | inr slot =>
      cases slot with
      | member b => exact ⟨rfl, h⟩
      | method g => exact h.boundAttribute (.classMethod (s.receiverClass receiver) g)

lemma moduleAttribute? {r : Ref .module} (hr : r.Live s.census) (x : String) :
    f.Matches (Image f base) (StoreM.moduleAttribute? r x s)
      (StoreM.moduleAttribute? (f.on r) x t) := by
  refine ⟨?_, h⟩
  show (if (t.module (f.on r)).exports.contains x then t.lookup? (t.module (f.on r)).scope x
    else none) = _
  rw [h.module hr]
  show (if (s.module r).exports.contains x then t.lookup? (f.on (s.module r).scope) x
    else none) = f.on (if (s.module r).exports.contains x then s.lookup? (s.module r).scope x
    else none)
  rw [h.lookup?]
  split
  · rfl
  · rfl

lemma infoAttribute (r : Ref .module) (x : String) :
    f.Matches (Image f base) (StoreM.infoAttribute r x s)
      (StoreM.infoAttribute (f.on r) x t) := by
  have hpath : (t.module (f.on r)).path = (s.module r).path := by
    obtain ⟨q, hq⟩ := h.exists_module r
    rw [hq]
    rfl
  unfold StoreM.infoAttribute
  rw [hpath]
  split
  · exact ⟨rfl, h⟩
  · exact ⟨rfl, h⟩

omit h in
lemma methodAttribute?_on (method x : String) :
    f.on (methodAttribute? method x) = methodAttribute? method x := by
  unfold methodAttribute?
  split
  · rfl
  · rfl

lemma attribute? {subject : Value} (hsub : subject.Live s.census) (x : String) :
    f.Matches (Image f base) (StoreM.attribute? subject x s)
      (StoreM.attribute? (f.on subject) x t) := by
  cases subject with
  | str text =>
    show f.Matches _ (StoreM.attribute? (.str text) x s) (StoreM.attribute? (.str text) x t)
    unfold StoreM.attribute?
    dsimp only
    cases TextMethod.ofName? x with
    | none => exact ⟨rfl, h⟩
    | some m => exact h.boundAttribute (.text m text)
  | list r =>
    show f.Matches _ (StoreM.attribute? (.list r) x s) (StoreM.attribute? (.list (f.on r)) x t)
    unfold StoreM.attribute?
    dsimp only
    cases ListMethod.ofName? x with
    | none => exact ⟨rfl, h⟩
    | some m => exact h.boundAttribute (.list m r)
  | dict r => exact ⟨h.dictAttribute? r x, h⟩
  | cls r => exact h.classAttribute? r x
  | inst r => exact h.instanceAttribute? r x
  | bound r =>
    refine .get_bind ?_
    have hbound : t.bound (f.on r) = f.on (s.bound r) := h.bound r
    show f.Matches (Image f base) _ _
    rw [hbound]
    cases s.bound r with
    | text m text => exact ⟨(methodAttribute?_on m.name x).symm, h⟩
    | list m q => exact ⟨(methodAttribute?_on m.name x).symm, h⟩
    | super owner receiver => exact h.superAttribute? owner receiver x
    | method _ _ => exact ⟨rfl, h⟩
    | classMethod _ _ => exact ⟨rfl, h⟩
  | module r => exact h.moduleAttribute? hsub x
  | info r => exact .bind_pure (h.infoAttribute r x) fun _ => rfl
  | _ => exact ⟨rfl, h⟩

lemma getAttribute {subject : Value} (hsub : subject.Live s.census) (x : String) :
    f.Matches (Image f base) (StoreM.getAttribute subject x s)
      (StoreM.getAttribute (f.on subject) x t) := by
  refine .bind (h.attribute? hsub x) fun found s' t' _ h' => ?_
  cases found with
  | some v => exact ⟨rfl, h'⟩
  | none => exact ⟨congrArg (fun l => Fault.noAttribute l x) (h'.label subject), h'⟩

/-! ### Instances -/

lemma newInstance (r : Ref .cls) :
    f.Matches (Image f base) (StoreM.newInstance r s) (StoreM.newInstance (f.on r) t) := by
  refine .get_bind ?_
  rw [h.flattenedMembers]
  exact h.new (k := .inst) ⟨r, s.flattenedMembers r, true⟩

lemma setInstanceAttribute {r : Ref .inst} (hr : r.Live s.census) (x : String) (v : Value) :
    f.Matches (Image f base) (StoreM.setInstanceAttribute r x v s)
      (StoreM.setInstanceAttribute (f.on r) x (f.on v) t) := by
  have hcontains : (f.on (s.inst r)).members.contains x = (s.inst r).members.contains x :=
    OrderedMap.contains_on ..
  have hinsert : (f.on (s.inst r)).members.insert x (some (f.on v)) =
      f.on ((s.inst r).members.insert x (some v)) :=
    OrderedMap.insert_on f (s.inst r).members x (some v)
  have hcls : (f.on (s.inst r)).cls = f.on (s.inst r).cls := rfl
  have hinit : (f.on (s.inst r)).initializing = (s.inst r).initializing := rfl
  unfold StoreM.setInstanceAttribute
  dsimp only
  rw [h.inst, hcontains, hinsert, hcls, h.className, hinit, h.isConstantMember]
  split
  · exact ⟨rfl, h⟩
  · split
    · exact ⟨rfl, h⟩
    · refine ⟨rfl, h.write (k := .inst) hr _ h.object⟩

lemma finishInstance {r : Ref .inst} (hr : r.Live s.census) :
    f.Matches (Image f base) (StoreM.finishInstance r s) (StoreM.finishInstance (f.on r) t) := by
  have hcls : (f.on (s.inst r)).cls = f.on (s.inst r).cls := rfl
  have hentries : (f.on (s.inst r)).members.entries = f.on (s.inst r).members.entries := rfl
  have hpending : (f.on (s.inst r).members.entries).find? (·.2.isNone) =
      f.on ((s.inst r).members.entries.find? (·.2.isNone)) :=
    f.find?_on (fun e => Option.isNone_map) _
  unfold StoreM.finishInstance
  dsimp only
  rw [h.inst, hentries, hpending, hcls, h.className]
  cases (s.inst r).members.entries.find? (·.2.isNone) with
  | some e => exact ⟨rfl, h⟩
  | none => exact ⟨rfl, h.write (k := .inst) hr _ h.object⟩

/-! ### Modules -/

lemma setModuleAttribute (hs : s.Sound false) {r : Ref .module} (hr : r.Live s.census)
    (x : String) (v : Value) :
    f.Matches (Image f base) (StoreM.setModuleAttribute r x v s)
      (StoreM.setModuleAttribute (f.on r) x (f.on v) t) := by
  refine .get_bind ?_
  rw [h.module hr]
  show f.Matches (Image f base) ((if (s.module r).exports.contains x then _ else _ : StoreM Unit) s)
    ((if (s.module r).exports.contains x then _ else _ : StoreM Unit) t)
  split
  · exact h.assign hs (hs.moduleScope_live hr) x v
  · exact ⟨rfl, h⟩

lemma newModuleAt (path : String) :
    f.Matches (Image f base) (StoreM.newModuleAt path s) (StoreM.newModuleAt path t) := by
  refine .bind (h.new (k := .scope) ⟨.empty, none⟩) fun scope s₁ t₁ hscope h₁ => ?_
  obtain ⟨⟩ := hscope
  refine .bind (h₁.new (k := .module) ⟨path, s.next .scope, []⟩) fun r s₂ t₂ hr h₂ => ?_
  obtain ⟨⟩ := hr
  have hlive : (s.next .scope).Live
      ((s.add (k := .scope) ⟨.empty, none⟩).add (k := .module) ⟨path, s.next .scope, []⟩).census :=
    (s.live_next (k := .scope) _).mono (Store.census_le_add _ _)
  exact .bind (h₂.declare hlive "wei" (.info _) true) fun _ s₃ t₃ _ h₃ => ⟨rfl, h₃⟩

lemma exportNames {r : Ref .module} (hr : r.Live s.census) (names : List String) :
    f.Matches (Image f base) (StoreM.exportNames r names s)
      (StoreM.exportNames (f.on r) names t) := by
  induction names generalizing s t with
  | nil => exact ⟨rfl, h⟩
  | cons x rest ih =>
    have hscope : (f.on (s.module r)).scope = f.on (s.module r).scope := rfl
    refine .get_bind (.get_bind ?_)
    rw [h.module hr, hscope, h.holds]
    let exported : Module := { s.module r with exports := (s.module r).exports.insert x }
    have hn : (s.setModule r exported).census = s.census := s.census_write hr _
    have h' : Image f base (s.setModule r exported) (t.setModule (f.on r) (f.on exported)) :=
      h.write (k := .module) hr exported h.object
    show f.Matches (Image f base)
      ((if s.holds (s.module r).scope x then _ else _ : StoreM Unit) s)
      ((if s.holds (s.module r).scope x then _ else _ : StoreM Unit) t)
    split
    · have hlive : r.Live (s.setModule r exported).census := by
        rw [hn]
        exact hr
      exact ih h' hlive
    · exact ⟨rfl, h⟩

/-! ### Writing attributes -/

lemma trySetAttribute (hs : s.Sound false) {subject : Value} (hsub : subject.Live s.census)
    (x : String) (v : Value) :
    f.Matches (Image f base) (StoreM.trySetAttribute subject x v s)
      (StoreM.trySetAttribute (f.on subject) x (f.on v) t) := by
  cases subject with
  | cls r => exact .bind_pure (h.setClassAttribute hs hsub x v) fun _ => rfl
  | inst r => exact .bind_pure (h.setInstanceAttribute hsub x v) fun _ => rfl
  | bound r =>
    refine .get_bind ?_
    rw [show t.bound (f.on r) = f.on (s.bound r) from h.bound r]
    cases s.bound r <;> exact ⟨rfl, h⟩
  | module r => exact .bind_pure (h.setModuleAttribute hs hsub x v) fun _ => rfl
  | _ => exact ⟨rfl, h⟩

lemma setAttribute (hs : s.Sound false) {subject : Value} (hsub : subject.Live s.census)
    (x : String) (v : Value) :
    f.Matches (Image f base) (StoreM.setAttribute subject x v s)
      (StoreM.setAttribute (f.on subject) x (f.on v) t) := by
  refine .bind (h.trySetAttribute hs hsub x v) fun done s' t' _ h' => ?_
  cases done with
  | true => exact ⟨rfl, h'⟩
  | false => exact ⟨congrArg Fault.cannotSetAttribute (h'.label subject), h'⟩

/-! ### Calls -/

lemma receiverBindings (receiver : Receiver) (g : Ref .function) :
    f.Matches (Image f base) (Evaluator.receiverBindings receiver g s)
      (Evaluator.receiverBindings (f.on receiver) (f.on g) t) := by
  have hown : Evaluator.ownBinding (f.on receiver) = f.on (Evaluator.ownBinding receiver) := by
    cases receiver <;> rfl
  have howner : (t.function (f.on g)).owner = f.on (s.function g).owner := by
    obtain ⟨q, hq⟩ := h.exists_function g
    rw [hq]
    rfl
  refine .get_bind ?_
  rw [howner, hown]
  cases (s.function g).owner with
  | none => exact ⟨rfl, h⟩
  | some owner => exact .bind_pure (h.new (k := .bound) (.super owner receiver)) fun _ => rfl

end Store.Image

end Wei
