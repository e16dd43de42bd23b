import Wei.Proofs.After
import Wei.Proofs.Nearest

/-!
Attributes of classes. Along the line of a class, reading stops at the first class that has a member
or a method under the name, and writing at the first that has a member. The two may be different
classes: a method hides the members of that name further up from readers, but not from writers.

So what is written through a class is read back through every class for which reading comes to the
slot that was written, and all other attributes are as they were. Through the class itself it is
read back unless a class between it and the slot has a method of the same name.
-/

namespace Wei

namespace Store

/-- The class at which reading a name stops: the nearest that has a member or a method under it. -/
def reader? (s : Store) (c : Ref .cls) (x : String) : Option (Ref .cls) :=
  (s.lineage c).find? fun d => ((s.cls d).slot? x).isSome

/-- The class at which writing a name stops: the nearest that has a member under it. -/
def owner? (s : Store) (c : Ref .cls) (x : String) : Option (Ref .cls) :=
  (s.lineage c).find? fun d => (s.cls d).classMembers.contains x

/-- **Reading the name through the class comes to the slot** that `owner` has under it. -/
def ReadsSlot (s : Store) (c : Ref .cls) (x : String) (owner : Ref .cls) : Prop :=
  s.reader? c x = some owner ∧ (s.cls owner).classMembers.contains x = true

/-- The classes of a line that come before `owner`. -/
def nearer (s : Store) (c owner : Ref .cls) : List (Ref .cls) :=
  (s.lineage c).takeWhile (· ≠ owner)

/-- Reading an attribute comes to the same in both stores: the answer is the same, and so is the
method that is bound for it. -/
def SameAttribute (s s' : Store) (c : Ref .cls) (x : String) : Prop :=
  ∃ answer bounds, StoreM.classAttribute? c x s = .ok answer { s with bounds := bounds } ∧
    StoreM.classAttribute? c x s' = .ok answer { s' with bounds := bounds }

/-- Writes a slot of a class. -/
def writeSlot (s : Store) (owner : Ref .cls) (x : String) (v : Value) : Store :=
  s.setClass owner
    { s.cls owner with classMembers := (s.cls owner).classMembers.insert x ⟨v, false⟩ }

end Store

/-! ### What a class has under a name -/

namespace Class

variable {c : Class} {x : String}

lemma slot?_eq_member (h : c.classMembers.contains x = true) :
    ∃ b, c.classMembers.find? x = some b ∧ c.slot? x = some (.member b) := by
  obtain ⟨b, hb⟩ := Option.isSome_iff_exists.mp h
  exact ⟨b, hb, by rw [slot?, hb]⟩

lemma slot?_of_no_member (h : c.classMembers.contains x = false) :
    c.slot? x = (c.classMethods.find? x).map .method := by
  have hnone : c.classMembers.find? x = none := by simpa [OrderedMap.contains] using h
  rw [slot?, hnone]

end Class

namespace Store

variable {s : Store} {c d owner : Ref .cls} {x y : String} {v : Value}

lemma slot?_writeSlot :
    ((s.writeSlot owner x v).cls d).slot? y =
      if owner = d ∧ x = y then some (.member ⟨v, false⟩) else (s.cls d).slot? y := by
  rw [writeSlot, cls_setClass]
  by_cases hd : owner = d
  · subst hd
    by_cases hy : x = y
    · simp [Class.slot?, hy]
    · simp [Class.slot?, OrderedMap.find?_insert, hy]
  · simp [hd]

lemma lineage_writeSlot : (s.writeSlot owner x v).lineage c = s.lineage c :=
  lineage_congr fun d _ => apply_cls_setClass (f := Class.parent) s (by rfl) d

/-- **What is written shows through the classes for which reading comes to the slot**, and what
other classes find, or these find under other names, stays. -/
lemma findSlot?_writeSlot (h : (s.cls owner).classMembers.contains x = true) :
    (s.writeSlot owner x v).findSlot? d y =
      if y = x ∧ s.reader? d x = some owner then some (.member ⟨v, false⟩)
      else s.findSlot? d y := by
  rw [findSlot?, lineage_writeSlot]
  by_cases hy : y = x
  · subst hy
    rw [findSome?_of_replaced (f := fun e => (s.cls e).slot? y) (q := owner)]
    · simp [slot?_writeSlot, reader?, findSlot?]
    · simp [slot?_writeSlot, Class.isSome_slot?, h]
    · intro e he
      rw [slot?_writeSlot, if_neg fun heq => he heq.1.symm]
  · simp only [slot?_writeSlot, Ne.symm hy, hy, and_false, false_and, if_false]
    rfl

/-! ### Where reading and writing stop -/

lemma contains_of_owner? (h : s.owner? c x = some owner) :
    (s.cls owner).classMembers.contains x = true :=
  List.find?_some (p := fun d => (s.cls d).classMembers.contains x) h

/-- The line of a class from which a slot is written, cut at the slot. -/
lemma exists_of_owner? (h : s.owner? c x = some owner) :
    ∃ farther, s.lineage c = s.nearer c owner ++ owner :: farther ∧
      ∀ d ∈ s.nearer c owner, (s.cls d).classMembers.contains x = false := by
  obtain ⟨howner, before, farther, hline, hbefore⟩ := List.find?_eq_some_iff_append.mp h
  have hnot : ∀ d ∈ before, (s.cls d).classMembers.contains x = false := by simpa using hbefore
  have hne : ∀ d ∈ before, decide (d ≠ owner) = true := by
    intro d hd
    refine decide_eq_true ?_
    rintro rfl
    exact absurd howner (by simp [hnot d hd])
  have hnearer : s.nearer c owner = before := by
    rw [nearer, hline, List.takeWhile_append_of_pos hne]
    simp
  rw [hnearer]
  exact ⟨farther, hline, hnot⟩

/-- **Reading comes to the slot that is written unless a method hides it.** -/
lemma readsSlot_iff (h : s.owner? c x = some owner) :
    s.ReadsSlot c x owner ↔ ∀ d ∈ s.nearer c owner, (s.cls d).classMethods.contains x = false := by
  obtain ⟨farther, hline, hnot⟩ := exists_of_owner? h
  have howner := contains_of_owner? h
  have hsilent (d : Ref .cls) (hd : d ∈ s.nearer c owner) :
      ((s.cls d).slot? x).isSome = (s.cls d).classMethods.contains x := by
    rw [Class.isSome_slot?, hnot d hd, Bool.false_or]
  constructor
  · rintro ⟨hreader, -⟩ d hd
    rw [reader?, hline, List.find?_append] at hreader
    cases hfind : (s.nearer c owner).find? (fun d => ((s.cls d).slot? x).isSome) with
    | none => simpa [hsilent d hd] using List.find?_eq_none.mp hfind d hd
    | some e =>
      -- the owner is not among the classes that come before it
      rw [hfind, Option.some_or] at hreader
      obtain rfl := Option.some_inj.mp hreader
      exact absurd howner (by simp [hnot e (List.mem_of_find?_eq_some hfind)])
  · intro hfree
    have hnone : (s.nearer c owner).find? (fun d => ((s.cls d).slot? x).isSome) = none := by
      refine List.find?_eq_none.mpr fun d hd => ?_
      rw [hsilent d hd, hfree d hd]
      exact Bool.false_ne_true
    refine ⟨?_, howner⟩
    rw [reader?, hline, List.find?_append, hnone, Option.none_or]
    exact List.find?_cons_of_pos (by simp [Class.isSome_slot?, howner])

/-- A slot that is written but not read is hidden by a method. -/
lemma exists_method_of_hidden (h : s.owner? c x = some owner) {d : Ref .cls}
    (hd : d ∈ s.nearer c owner) (hmethod : (s.cls d).classMethods.contains x = true) :
    ∃ f, s.findSlot? c x = some (.method f) := by
  obtain ⟨farther, hline, hnot⟩ := exists_of_owner? h
  have hspeaks : ((s.nearer c owner).find? fun e => ((s.cls e).slot? x).isSome).isSome := by
    refine List.find?_isSome.mpr ⟨d, hd, ?_⟩
    rw [Class.isSome_slot?, hmethod, Bool.or_true]
  obtain ⟨e, he⟩ := Option.isSome_iff_exists.mp hspeaks
  have hslot : ((s.cls e).slot? x).isSome = true :=
    List.find?_some (p := fun e => ((s.cls e).slot? x).isSome) he
  have hmap := Class.slot?_of_no_member (hnot e (List.mem_of_find?_eq_some he))
  rw [hmap, Option.isSome_map] at hslot
  obtain ⟨f, hf⟩ := Option.isSome_iff_exists.mp hslot
  refine ⟨f, ?_⟩
  rw [findSlot?, findSome?_eq_bind_find? fun _ => rfl, hline, List.find?_append, he, Option.some_or,
    Option.bind_some, hmap, hf, Option.map_some]

end Store

/-! ### Reading and writing -/

namespace StoreM

variable {s s' : Store} {c owner : Ref .cls} {x : String} {v : Value} {b : Binding}

lemma classAttribute?_of_member (h : s.findSlot? c x = some (.member b)) :
    classAttribute? c x s = .ok (some b.value) s := by
  refine (EStateM.bind_of_ok (show (get : StoreM Store) s = .ok s s from rfl)).trans ?_
  rw [h]
  rfl

/-- A method is bound anew each time that it is read. -/
lemma classAttribute?_of_method {f : Ref .function} (h : s.findSlot? c x = some (.method f)) :
    classAttribute? c x s = .ok (some (.bound ⟨s.bounds.size⟩))
      { s with bounds := s.bounds.push (.classMethod c f) } := by
  refine (EStateM.bind_of_ok (show (get : StoreM Store) s = .ok s s from rfl)).trans ?_
  rw [h]
  rfl

lemma classAttribute?_of_none (h : s.findSlot? c x = none) :
    classAttribute? c x s = .ok none s := by
  refine (EStateM.bind_of_ok (show (get : StoreM Store) s = .ok s s from rfl)).trans ?_
  rw [h]
  rfl

lemma setClassAttribute_of_none (h : s.owner? c x = none) :
    setClassAttribute c x v s = .error (.noAttribute ("<class " ++ (s.cls c).name ++ ">") x) s := by
  unfold Store.owner? at h
  rw [setClassAttribute, h]

lemma setClassAttribute_of_constant (h : s.owner? c x = some owner)
    (hb : (s.cls owner).classMembers.find? x = some b) (hc : b.constant = true) :
    setClassAttribute c x v s = .error (.constantAttribute x) s := by
  unfold Store.owner? at h
  rw [setClassAttribute, h]
  exact if_pos (by simp [hb, hc])

lemma setClassAttribute_of_variable (h : s.owner? c x = some owner)
    (hb : (s.cls owner).classMembers.find? x = some b) (hc : b.constant = false) :
    setClassAttribute c x v s = .ok () (s.writeSlot owner x v) := by
  unfold Store.owner? at h
  rw [setClassAttribute, h]
  exact if_neg (by simp [hb, hc])

end StoreM

namespace Store

variable {s s' : Store} {c : Ref .cls} {x : String}

/-- Classes that find the same under a name have the same attribute. -/
lemma sameAttribute_of_findSlot? (hslot : s'.findSlot? c x = s.findSlot? c x)
    (hbounds : s'.bounds = s.bounds) : s.SameAttribute s' c x := by
  cases h : s.findSlot? c x with
  | none =>
    refine ⟨none, s.bounds, StoreM.classAttribute?_of_none h, ?_⟩
    rw [← hbounds]
    exact StoreM.classAttribute?_of_none (hslot.trans h)
  | some slot =>
    cases slot with
    | member b =>
      refine ⟨some b.value, s.bounds, StoreM.classAttribute?_of_member h, ?_⟩
      rw [← hbounds]
      exact StoreM.classAttribute?_of_member (hslot.trans h)
    | method f =>
      refine ⟨_, _, StoreM.classAttribute?_of_method h, ?_⟩
      rw [← hbounds]
      exact StoreM.classAttribute?_of_method (hslot.trans h)

end Store

/-- **What is written to an attribute of a class is read where reading comes to the slot that was
written**, for all hierarchies of classes, with members and methods at any level.

* Writing succeeds exactly if the nearest class of the line that has a member under the name has not
  declared it a constant. If it is refused, nothing changes.
* Through every class for which reading comes to the slot of this class, the new value is read. No
  other attribute of any class changes.
* Through the class by way of which it was written, it is read back exactly if no class before that
  of the slot has a method under the name. If one has, that method is read, as before. -/
theorem Store.class_attributes_read_back_unless_hidden (s : Store) (c : Ref .cls) (x : String)
    (v : Value) :
    ((∃ s', StoreM.setClassAttribute c x v s = .ok () s') ↔ ∃ owner b, s.owner? c x = some owner ∧
      (s.cls owner).classMembers.find? x = some b ∧ b.constant = false) ∧
    (∀ f s', StoreM.setClassAttribute c x v s = .error f s' → s' = s) ∧
    ∀ s', StoreM.setClassAttribute c x v s = .ok () s' → ∃ owner, s.owner? c x = some owner ∧
      (∀ d, s.ReadsSlot d x owner → StoreM.classAttribute? d x s' = .ok (some v) s') ∧
      (∀ d y, ¬ (y = x ∧ s.ReadsSlot d x owner) → s.SameAttribute s' d y) ∧
      ((∀ d ∈ s.nearer c owner, (s.cls d).classMethods.contains x = false) →
        StoreM.classAttribute? c x s' = .ok (some v) s') ∧
      ∀ d ∈ s.nearer c owner, (s.cls d).classMethods.contains x = true →
        ∃ f, StoreM.classAttribute? c x s' = .ok (some (.bound ⟨s'.bounds.size⟩))
          { s' with bounds := s'.bounds.push (.classMethod c f) } := by
  cases howner : s.owner? c x with
  | none =>
    rw [StoreM.setClassAttribute_of_none howner]
    refine ⟨by simp, ?_, by simp⟩
    rintro f s' ⟨⟩
    rfl
  | some owner =>
    have hmember := Store.contains_of_owner? howner
    obtain ⟨b, hb, -⟩ := Class.slot?_eq_member hmember
    cases hc : b.constant with
    | true =>
      rw [StoreM.setClassAttribute_of_constant howner hb hc]
      refine ⟨by simp [hb, hc], ?_, by simp⟩
      rintro f s' ⟨⟩
      rfl
    | false =>
      rw [StoreM.setClassAttribute_of_variable howner hb hc]
      refine ⟨by simp [hb, hc], by simp, ?_⟩
      rintro s' ⟨⟩
      have written (d : Ref .cls) (hd : s.ReadsSlot d x owner) :
          StoreM.classAttribute? d x (s.writeSlot owner x v) =
            .ok (some v) (s.writeSlot owner x v) := by
        have hslot := Store.findSlot?_writeSlot (d := d) (y := x) (v := v) hmember
        rw [if_pos ⟨rfl, hd.1⟩] at hslot
        exact StoreM.classAttribute?_of_member hslot
      refine ⟨owner, rfl, written, fun d y hdy => ?_, fun hfree => ?_, fun d hd hmethod => ?_⟩
      · refine Store.sameAttribute_of_findSlot? ?_ rfl
        rw [Store.findSlot?_writeSlot hmember, if_neg fun h => hdy ⟨h.1, h.2, hmember⟩]
      · exact written c ((Store.readsSlot_iff howner).mpr hfree)
      · obtain ⟨f, hf⟩ := Store.exists_method_of_hidden howner hd hmethod
        have hidden : ¬ (x = x ∧ s.reader? c x = some owner) := by
          rintro ⟨-, hreader⟩
          have hfree := (Store.readsSlot_iff howner).mp ⟨hreader, hmember⟩ d hd
          exact absurd hmethod (by simp [hfree])
        refine ⟨f, StoreM.classAttribute?_of_method ?_⟩
        rw [Store.findSlot?_writeSlot hmember, if_neg hidden, hf]

/-- The store after a class `A` has been defined, with a member `x` of its own, and below it a class
`B` with this body. -/
def Store.withTwoClasses (body : List Stmt) : Store :=
  let host : Host := ⟨.empty ⟨[]⟩, fun _ _ => .syntaxError "", Text.line?⟩
  let start := Engine.initial.newSession false .standard none
  let first := (start.turn 0 (Eval.openModule host "")).2
  let member : Stmt := .mk 1 (.member "x" (some (.literal (.int 1))) false true)
  let program : Program :=
    ⟨[.mk 1 (.classDef "A" none [member]), .mk 2 (.classDef "B" (some (.name "A")) body)]⟩
  (first.turn 0 (Eval.evaluate host ⟨6, 1⟩ (.program program) ⟨0⟩)).2.store

/-- Where `B` has nothing of its own, what is written through it is read through both classes. -/
theorem Store.attribute_written_through_heir :
    ∃ s', StoreM.setClassAttribute ⟨2⟩ "x" (.int 2) (.withTwoClasses []) = .ok () s' ∧
      StoreM.classAttribute? ⟨1⟩ "x" s' = .ok (some (.int 2)) s' ∧
      StoreM.classAttribute? ⟨2⟩ "x" s' = .ok (some (.int 2)) s' := by
  generalize hs : Store.withTwoClasses [] = s
  have howner : s.owner? ⟨2⟩ "x" = some ⟨1⟩ := by subst hs; decide +kernel
  have hmember : (s.cls ⟨1⟩).classMembers.find? "x" = some ⟨.int 1, false⟩ := by
    subst hs; decide +kernel
  have hfirst : s.reader? ⟨1⟩ "x" = some ⟨1⟩ := by subst hs; decide +kernel
  have hsecond : s.reader? ⟨2⟩ "x" = some ⟨1⟩ := by subst hs; decide +kernel
  obtain ⟨hwrites, -, hreads⟩ :=
    Store.class_attributes_read_back_unless_hidden s ⟨2⟩ "x" (.int 2)
  obtain ⟨s', hs'⟩ := hwrites.mpr ⟨⟨1⟩, _, howner, hmember, rfl⟩
  obtain ⟨owner, howner', hslot, -⟩ := hreads s' hs'
  obtain rfl := Option.some_inj.mp (howner.symm.trans howner')
  have hcontains := Store.contains_of_owner? howner
  exact ⟨s', hs', hslot ⟨1⟩ ⟨hfirst, hcontains⟩, hslot ⟨2⟩ ⟨hsecond, hcontains⟩⟩

/-- Where `B` has a method of the name, what is written through it is not read back: the attribute
is the method. -/
theorem Store.written_attribute_hidden_by_method :
    let method : Stmt := .mk 2 (.method (.mk (some "x") [] []) true)
    ∃ s', StoreM.setClassAttribute ⟨2⟩ "x" (.int 2) (.withTwoClasses [method]) = .ok () s' ∧
      StoreM.classAttribute? ⟨1⟩ "x" s' = .ok (some (.int 2)) s' ∧
      ∃ t, StoreM.classAttribute? ⟨2⟩ "x" s' = .ok (some (.bound ⟨0⟩)) t := by
  intro method
  generalize hs : Store.withTwoClasses [method] = s
  have howner : s.owner? ⟨2⟩ "x" = some ⟨1⟩ := by subst hs; decide +kernel
  have hmember : (s.cls ⟨1⟩).classMembers.find? "x" = some ⟨.int 1, false⟩ := by
    subst hs; decide +kernel
  have hfirst : (s.writeSlot ⟨1⟩ "x" (.int 2)).findSlot? ⟨1⟩ "x" =
      some (.member ⟨.int 2, false⟩) := by
    subst hs; decide +kernel
  have hsecond : (s.writeSlot ⟨1⟩ "x" (.int 2)).findSlot? ⟨2⟩ "x" = some (.method ⟨0⟩) := by
    subst hs; decide +kernel
  have hsize : (s.writeSlot ⟨1⟩ "x" (.int 2)).bounds.size = 0 := by subst hs; decide +kernel
  have hread := StoreM.classAttribute?_of_method hsecond
  rw [hsize] at hread
  exact ⟨_, StoreM.setClassAttribute_of_variable howner hmember rfl,
    StoreM.classAttribute?_of_member hfirst, _, hread⟩

end Wei
