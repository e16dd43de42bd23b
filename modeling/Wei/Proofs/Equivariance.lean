import Mathlib.Data.List.GetD
import Mathlib.Data.List.InsertIdx
import Wei.Attribute
import Wei.Builtin
import Wei.Operator
import Wei.Proofs.Bisimulation
import Wei.Proofs.Printing
import Wei.Proofs.Renaming

/-!
What is asked of a store and of its image has the same answer, up to the renaming. The questions
are about scopes and classes, about how values print and compare, and about what operators and the
built-in functions and methods answer. A text that is answered is the same text: the addresses at
which instances print are those of the host.
-/

namespace Wei

namespace Renaming

variable (f : Renaming) {α β γ : Type} [Renamable α] [Renamable β] [Renamable γ]

/-! ### Lists of things that are renamed -/

@[simp] lemma length_on (l : List α) : (f.on l).length = l.length := List.length_map _

@[simp] lemma isEmpty_on (l : List α) : (f.on l).isEmpty = l.isEmpty := by
  cases l <;> rfl

lemma getElem?_on (l : List α) (i : Nat) : (f.on l)[i]? = f.on l[i]? := List.getElem?_map

lemma on_append (l l' : List α) : f.on (l ++ l') = f.on l ++ f.on l' := List.map_append

lemma find?_on {p q : α → Bool} (h : ∀ a, q (f.on a) = p a) (l : List α) :
    (f.on l).find? q = f.on (l.find? p) := by
  have hq : q ∘ f.on = p := funext h
  show (l.map f.on).find? q = (l.find? p).map f.on
  rw [List.find?_map, hq]

lemma findSome?_on {p q : α → Option β} (h : ∀ a, q (f.on a) = f.on (p a)) (l : List α) :
    (f.on l).findSome? q = f.on (l.findSome? p) := by
  induction l with
  | nil => rfl
  | cons a rest ih =>
    show (f.on a :: f.on rest).findSome? q = f.on ((a :: rest).findSome? p)
    rw [List.findSome?_cons, List.findSome?_cons, h, ih]
    cases p a with
    | none => rfl
    | some b => rfl

lemma foldl_on {g g' : β → α → β} (h : ∀ b a, g' (f.on b) (f.on a) = f.on (g b a)) (l : List α)
    (b : β) : (f.on l).foldl g' (f.on b) = f.on (l.foldl g b) := by
  induction l generalizing b with
  | nil => rfl
  | cons a rest ih =>
    show (f.on rest).foldl g' (g' (f.on b) (f.on a)) = _
    rw [h, ih]
    rfl

lemma map_on {δ : Type} {g g' : α → δ} (h : ∀ a, g' (f.on a) = g a) (l : List α) :
    (f.on l).map g' = l.map g := by
  have hg : g' ∘ f.on = g := funext h
  show (l.map f.on).map g' = l.map g
  rw [List.map_map, hg]

lemma contains_on (l : List Value) (v : Value) : (f.on l).contains (f.on v) = l.contains v := by
  have hinj : Function.Injective (f.on : Value → Value) := fun _ _ => f.on_value_injective.mp
  rw [Bool.eq_iff_iff, List.contains_iff_mem, List.contains_iff_mem]
  exact List.mem_map_of_injective hinj

end Renaming

namespace Store.Image

variable {s t base : Store} {f : Renaming} (h : Image f base s t)
include h

/-! ### Scopes -/

lemma chain (r : Ref .scope) : t.chain (f.on r) = f.on (s.chain r) := by
  fun_induction s.chain r with
  | case1 r ih =>
    have houter : (t.scope (f.on r)).outer = f.on (s.scope r).outer := by rw [h.scope]; rfl
    rw [Store.chain, houter]
    cases ho : (s.scope r).outer with
    | none => rfl
    | some outer =>
      show f.on r :: (if (f.on outer).index < (f.on r).index then t.chain (f.on outer) else []) = _
      simp only [f.index_lt_iff]
      split
      · next hlt =>
        rw [ih outer hlt]
        rfl
      · rfl

lemma holds (r : Ref .scope) (x : String) : t.holds (f.on r) x = s.holds r x := by
  unfold Store.holds
  rw [h.scope]
  exact OrderedMap.contains_on ..

lemma holder? (r : Ref .scope) (x : String) : t.holder? (f.on r) x = f.on (s.holder? r x) := by
  unfold Store.holder?
  rw [h.chain]
  exact f.find?_on (fun q => h.holds q x) _

lemma find?_bindings (r : Ref .scope) (x : String) :
    (t.scope (f.on r)).bindings.find? x = f.on ((s.scope r).bindings.find? x) := by
  rw [h.scope]
  exact OrderedMap.find?_on ..

lemma lookup? (r : Ref .scope) (x : String) : t.lookup? (f.on r) x = f.on (s.lookup? r x) := by
  unfold Store.lookup?
  rw [h.chain]
  refine f.findSome?_on (fun q => ?_) _
  rw [h.find?_bindings]
  cases (s.scope q).bindings.find? x with
  | none => rfl
  | some b => rfl

lemma isConstant (r : Ref .scope) (x : String) : t.isConstant (f.on r) x = s.isConstant r x := by
  unfold Store.isConstant
  rw [h.find?_bindings]
  cases (s.scope r).bindings.find? x with
  | none => rfl
  | some b => rfl

/-! ### Classes -/

lemma lineage (r : Ref .cls) : t.lineage (f.on r) = f.on (s.lineage r) := by
  fun_induction s.lineage r with
  | case1 r ih =>
    have hparent : (t.cls (f.on r)).parent = f.on (s.cls r).parent := by rw [h.cls]; rfl
    rw [Store.lineage, hparent]
    cases hp : (s.cls r).parent with
    | none => rfl
    | some parent =>
      show f.on r ::
        (if (f.on parent).index < (f.on r).index then t.lineage (f.on parent) else []) = _
      simp only [f.index_lt_iff]
      split
      · next hlt =>
        rw [ih parent hlt]
        rfl
      · rfl

lemma findMethod? (r : Ref .cls) (x : String) :
    t.findMethod? (f.on r) x = f.on (s.findMethod? r x) := by
  unfold Store.findMethod?
  rw [h.lineage]
  refine f.findSome?_on (fun c => ?_) _
  rw [h.cls]
  exact OrderedMap.find?_on ..

omit h in
lemma slot?_on (c : Class) (x : String) : (f.on c).slot? x = f.on (c.slot? x) := by
  have hmember : (f.on c).classMembers.find? x = f.on (c.classMembers.find? x) :=
    OrderedMap.find?_on ..
  have hmethod : (f.on c).classMethods.find? x = f.on (c.classMethods.find? x) :=
    OrderedMap.find?_on ..
  unfold Class.slot?
  rw [hmember, hmethod]
  cases c.classMembers.find? x with
  | some b => rfl
  | none =>
    cases c.classMethods.find? x with
    | some g => rfl
    | none => rfl

lemma findSlot? (r : Ref .cls) (x : String) : t.findSlot? (f.on r) x = f.on (s.findSlot? r x) := by
  unfold Store.findSlot?
  rw [h.lineage]
  refine f.findSome?_on (fun c => ?_) _
  rw [h.cls, slot?_on]

lemma isConstantMember (r : Ref .cls) (x : String) :
    t.isConstantMember (f.on r) x = s.isConstantMember r x := by
  have hfind : ((t.lineage (f.on r)).findSome? fun c => (t.cls c).members.find? x) =
      f.on ((s.lineage r).findSome? fun c => (s.cls c).members.find? x) := by
    rw [h.lineage]
    refine f.findSome?_on (fun c => ?_) _
    rw [h.cls]
    exact OrderedMap.find?_on ..
  unfold Store.isConstantMember
  rw [hfind]
  cases (s.lineage r).findSome? fun c => (s.cls c).members.find? x with
  | none => rfl
  | some d => rfl

lemma flattenedMembers (r : Ref .cls) :
    t.flattenedMembers (f.on r) = f.on (s.flattenedMembers r) := by
  have hreverse : (f.on (s.lineage r)).reverse = f.on (s.lineage r).reverse :=
    List.map_reverse.symm
  unfold Store.flattenedMembers
  rw [h.lineage, hreverse]
  refine f.foldl_on (β := OrderedMap String (Option Value)) (fun acc c => ?_) _ .empty
  rw [h.cls]
  exact f.foldl_on (fun acc e => OrderedMap.insert_on ..) (s.cls c).members.entries acc

omit h in
lemma superSlot?_on (c : Class) (receiver : Receiver) (x : String) :
    (f.on c).superSlot? (f.on receiver) x = f.on (c.superSlot? receiver x) := by
  have hmethod : (f.on c).methods.find? x = f.on (c.methods.find? x) := OrderedMap.find?_on ..
  have hinherited : ((f.on c).slot? x).map .inr =
      f.on ((c.slot? x).map .inr : Option (Ref .function ⊕ ClassSlot)) := by
    rw [slot?_on]
    cases c.slot? x with
    | none => rfl
    | some slot => rfl
  unfold Class.superSlot?
  rw [hinherited]
  cases receiver with
  | cls q => rfl
  | inst q =>
    have hreceiver : f.on (Receiver.inst q) = .inst (f.on q) := rfl
    rw [hreceiver]
    dsimp only
    rw [hmethod]
    cases c.methods.find? x with
    | none => rfl
    | some g => rfl

lemma receiverClass (receiver : Receiver) :
    t.receiverClass (f.on receiver) = f.on (s.receiverClass receiver) := by
  cases receiver with
  | cls r => rfl
  | inst r =>
    show (t.inst (f.on r)).cls = f.on (s.inst r).cls
    rw [h.inst]
    rfl

lemma findSuper? (owner : Ref .cls) (receiver : Receiver) (x : String) :
    t.findSuper? (f.on owner) (f.on receiver) x = f.on (s.findSuper? owner receiver x) := by
  have hparent : (t.cls (f.on owner)).parent = f.on (s.cls owner).parent := by rw [h.cls]; rfl
  unfold Store.findSuper?
  rw [hparent]
  cases (s.cls owner).parent with
  | none => rfl
  | some parent =>
    show (t.lineage (f.on parent)).findSome? _ = _
    rw [h.lineage]
    refine f.findSome?_on (fun c => ?_) _
    rw [h.cls, superSlot?_on]

/-! ### Types and truth -/

lemma className (r : Ref .cls) : (t.cls (f.on r)).name = (s.cls r).name := by
  rw [h.cls]
  rfl

lemma instClass (r : Ref .inst) : (t.inst (f.on r)).cls = f.on (s.inst r).cls := by
  rw [h.inst]
  rfl

lemma typeName (v : Value) : t.typeName (f.on v) = s.typeName v := by
  cases v with
  | inst r =>
    show (t.cls (t.inst (f.on r)).cls).name = (s.cls (s.inst r).cls).name
    rw [h.instClass, h.className]
  | bound r =>
    show (t.bound (f.on r)).typeName = (s.bound r).typeName
    rw [h.bound]
    cases s.bound r <;> rfl
  | _ => rfl

lemma label (v : Value) : t.label (f.on v) = s.label v := by
  have htype := h.typeName v
  cases v with
  | cls r =>
    show "<class " ++ (t.cls (f.on r)).name ++ ">" = "<class " ++ (s.cls r).name ++ ">"
    rw [h.className]
  | _ => exact htype

lemma truth (v : Value) : t.truth (f.on v) = s.truth v := by
  cases v with
  | list r =>
    show (!(t.list (f.on r)).isEmpty) = !(s.list r).isEmpty
    rw [h.list, f.isEmpty_on]
  | dict r =>
    show (!(t.dict (f.on r)).entries.isEmpty) = !(s.dict r).entries.isEmpty
    rw [h.dict]
    exact congrArg (!·) List.isEmpty_map
  | _ => rfl

/-! ### Printing -/

lemma functionName (r : Ref .function) : (t.function (f.on r)).name = (s.function r).name := by
  obtain ⟨q, hq⟩ := h.exists_function r
  rw [hq]
  rfl

lemma renderInst (r : Ref .inst) : t.renderInst (f.on r) = s.renderInst r := by
  have haddress : t.address (f.on r) = s.address r := by
    unfold Store.address
    rw [← h.addresses]
    rfl
  unfold Store.renderInst
  rw [h.instClass, h.className, haddress]

lemma renderBound (b : Bound) : t.renderBound (f.on b) = s.renderBound b := by
  cases b with
  | text m x => rfl
  | list m r => rfl
  | method this g =>
    show "<bound method '" ++ ((t.function (f.on g)).name.getD "") ++ "' of '" ++
      t.renderInst (f.on this) ++ "'>" = _
    rw [h.functionName, h.renderInst]
    rfl
  | classMethod c g =>
    show "<class method '" ++ ((t.function (f.on g)).name.getD "") ++ "' of '" ++
      (t.cls (f.on c)).name ++ "'>" = _
    rw [h.functionName, h.className]
    rfl
  | super owner receiver => rfl

lemma renderPlain (v : Value) : t.renderPlain (f.on v) = s.renderPlain v := by
  induction v with
  | function r =>
    refine congrArg Text.ofString ?_
    show "<function " ++ (t.function (f.on r)).title ++ ">" =
      "<function " ++ (s.function r).title ++ ">"
    unfold Closure.title
    rw [h.functionName]
  | cls r =>
    refine congrArg Text.ofString ?_
    show "<class " ++ (t.cls (f.on r)).name ++ ">" = "<class " ++ (s.cls r).name ++ ">"
    rw [h.className]
  | inst r => exact congrArg Text.ofString (h.renderInst r)
  | bound r =>
    refine congrArg Text.ofString ?_
    show t.renderBound (t.bound (f.on r)) = s.renderBound (s.bound r)
    rw [h.bound, h.renderBound]
  | module r =>
    refine congrArg Text.ofString ?_
    show "<module object at '" ++ (t.module (f.on r)).path ++ "'>" = _
    obtain ⟨q, hq⟩ := h.exists_module r
    rw [hq]
    rfl
  | returned v ih => exact ih
  | _ => rfl

lemma renderWithin (depth : Nat) (active : List Value) (v : Value) :
    t.renderWithin depth (f.on active) (f.on v) = s.renderWithin depth active v := by
  have hplain := h.renderPlain v
  induction depth generalizing active v with
  | zero => cases v <;> exact hplain
  | succ depth ih =>
    have inside (c w : Value) : t.renderWithin depth (f.on c :: f.on active) (f.on w) =
        s.renderWithin depth (c :: active) w := ih (c :: active) w (h.renderPlain w)
    have hcontains := f.contains_on active v
    induction v with
    | list r =>
      show t.renderWithin (depth + 1) (f.on active) (.list (f.on r)) = _
      rw [renderWithin_list, renderWithin_list]
      show (if (f.on active).contains (f.on (.list r)) then t.renderPlain (f.on (.list r)) else
        listText ((t.list (f.on r)).map
          (t.renderWithin depth (f.on (.list r) :: f.on active)))) = _
      rw [hcontains, hplain, h.list, f.map_on (inside (.list r))]
    | dict r =>
      have hvalues : (t.dict (f.on r)).values = f.on (s.dict r).values := by
        rw [h.dict]
        exact OrderedMap.values_on ..
      have entry (e : Value × Value) :
          (t.renderWithin depth (f.on (.dict r) :: f.on active) (f.on e).1,
            t.renderWithin depth (f.on (.dict r) :: f.on active) (f.on e).2) =
          (s.renderWithin depth (.dict r :: active) e.1,
            s.renderWithin depth (.dict r :: active) e.2) :=
        congrArg₂ Prod.mk (inside (.dict r) e.1) (inside (.dict r) e.2)
      show t.renderWithin (depth + 1) (f.on active) (.dict (f.on r)) = _
      rw [renderWithin_dict, renderWithin_dict]
      show (if (f.on active).contains (f.on (.dict r)) then t.renderPlain (f.on (.dict r)) else
        dictText ((t.dict (f.on r)).values.map fun e =>
          (t.renderWithin depth (f.on (.dict r) :: f.on active) e.1,
            t.renderWithin depth (f.on (.dict r) :: f.on active) e.2))) = _
      rw [hcontains, hplain, hvalues, f.map_on entry]
    | returned v ihv => exact ihv hplain (f.contains_on active v)
    | _ => exact hplain

/-- **The image of a value prints as the value does.** -/
lemma render (v : Value) : t.render (f.on v) = s.render v := by
  have hle : s.containers + 1 ≤ t.containers + 1 :=
    Nat.succ_le_succ (Nat.add_le_add (h.census_le .list) (h.census_le .dict))
  calc t.render (f.on v) = t.renderWithin (t.containers + 1) (f.on []) (f.on v) := rfl
    _ = s.renderWithin (t.containers + 1) [] v := h.renderWithin _ [] v
    _ = s.render v := renderWithin_of_le hle v

/-! ### Comparing -/

omit h in
lemma exists_of_on_eq_list {v : Value} {r : Ref .list} (hv : f.on v = .list r) :
    ∃ q, v = .list q ∧ r = f.on q := by
  cases v with
  | list q =>
    obtain ⟨⟩ := hv
    exact ⟨q, rfl, rfl⟩
  | _ => cases hv

omit h in
lemma exists_of_on_eq_dict {v : Value} {r : Ref .dict} (hv : f.on v = .dict r) :
    ∃ q, v = .dict q ∧ r = f.on q := by
  cases v with
  | dict q =>
    obtain ⟨⟩ := hv
    exact ⟨q, rfl, rfl⟩
  | _ => cases hv

lemma find?_dict (r : Ref .dict) (k : HashKey) :
    (t.dict (f.on r)).find? k = f.on ((s.dict r).find? k) := by
  rw [h.dict]
  exact OrderedMap.find?_on ..

lemma contains_dict (r : Ref .dict) (k : HashKey) :
    (t.dict (f.on r)).contains k = (s.dict r).contains k := by
  rw [h.dict]
  exact OrderedMap.contains_on ..

lemma alike_iff {R : Value → Value → Prop} {a b : Value} :
    t.Alike R (f.on a) (f.on b) ↔ s.Alike (fun x y => R (f.on x) (f.on y)) a b := by
  constructor
  · generalize hx : f.on a = x, hy : f.on b = y
    intro halike
    cases halike with
    | same =>
      obtain rfl := f.on_value_injective.mp (hx.trans hy.symm)
      exact .same a
    | list hl =>
      obtain ⟨p, rfl, rfl⟩ := exists_of_on_eq_list hx
      obtain ⟨q, rfl, rfl⟩ := exists_of_on_eq_list hy
      rw [h.list, h.list] at hl
      exact .list (List.forall₂_map_left_iff.mp (List.forall₂_map_right_iff.mp hl))
    | dict hkeys hvalues =>
      obtain ⟨p, rfl, rfl⟩ := exists_of_on_eq_dict hx
      obtain ⟨q, rfl, rfl⟩ := exists_of_on_eq_dict hy
      simp only [h.contains_dict, h.find?_dict] at hkeys hvalues
      refine .dict hkeys fun k e d he hd => hvalues k (f.on e) (f.on d) ?_ ?_
      · rw [he]
        rfl
      · rw [hd]
        rfl
  · intro halike
    cases halike with
    | same => exact .same _
    | list hl =>
      refine .list ?_
      rw [h.list, h.list]
      exact List.forall₂_map_left_iff.mpr (List.forall₂_map_right_iff.mpr hl)
    | dict hkeys hvalues =>
      refine .dict (fun k => ?_) fun k e d he hd => ?_
      · rw [h.contains_dict, h.contains_dict]
        exact hkeys k
      · rw [h.find?_dict] at he hd
        obtain ⟨e', he', rfl⟩ := Option.map_eq_some_iff.mp he
        obtain ⟨d', hd', rfl⟩ := Option.map_eq_some_iff.mp hd
        exact hvalues k e' d' he' hd'

lemma bisimilar_iff {a b : Value} : t.Bisimilar (f.on a) (f.on b) ↔ s.Bisimilar a b := by
  constructor
  · rintro ⟨R, hR, hab⟩
    exact ⟨fun x y => R (f.on x) (f.on y), fun x y hxy => h.alike_iff.mp (hR _ _ hxy), hab⟩
  · rintro ⟨R, hR, hab⟩
    let R' (x y : Value) : Prop := ∃ u v, R u v ∧ f.on u = x ∧ f.on v = y
    refine ⟨R', ?_, a, b, hab, rfl, rfl⟩
    rintro _ _ ⟨u, v, huv, rfl, rfl⟩
    exact h.alike_iff.mpr ((hR u v huv).mono fun x y hxy => ⟨x, y, hxy, rfl, rfl⟩)

lemma equal (a b : Value) : t.equal (f.on a) (f.on b) = s.equal a b := by
  rw [Bool.eq_iff_iff, equal_iff_bisimilar, equal_iff_bisimilar]
  exact h.bisimilar_iff

/-! ### Items and walks -/

omit h in
lemma hashKey?_on (v : Value) : (f.on v).hashKey? = v.hashKey? := by
  cases v <;> rfl

omit h in
lemma encode_on (v : Value) : (f.on v).encode = v.encode := by
  cases v <;> rfl

omit h in
lemma encodeIndex_on (i v : Value) : (f.on i).encodeIndex (f.on v) = i.encodeIndex v := by
  cases v with
  | dict r => exact encode_on i
  | _ => rfl

omit h in
lemma textItem_on (x : Text) (i : Value) : textItem x (f.on i) = f.on (textItem x i) := by
  cases i with
  | int n =>
    have hint : f.on (Value.int n) = .int n := rfl
    rw [hint]
    unfold textItem
    dsimp only
    cases Position.index? n.toInt x.length with
    | none => rfl
    | some k => rfl
  | _ => rfl

lemma listIndex (r : Ref .list) (i : Value) : t.listIndex (f.on r) (f.on i) = s.listIndex r i := by
  have hlabel := h.label i
  cases i with
  | int n =>
    show Except.ok (Position.index? n.toInt (t.list (f.on r)).length) = _
    rw [h.list, f.length_on]
    rfl
  | _ => exact congrArg (fun l => Except.error (Fault.listIndexType l)) hlabel

lemma listItem (r : Ref .list) (i : Value) :
    t.listItem (f.on r) (f.on i) = f.on (s.listItem r i) := by
  unfold Store.listItem
  rw [h.listIndex, h.list]
  cases s.listIndex r i with
  | error e => rfl
  | ok place =>
    cases place with
    | none => rfl
    | some k => exact congrArg Except.ok (List.getD_map _ Value.null f.on)

lemma dictItem (r : Ref .dict) (key : Value) :
    t.dictItem (f.on r) (f.on key) = f.on (s.dictItem r key) := by
  unfold Store.dictItem
  rw [hashKey?_on, h.label]
  cases key.hashKey? with
  | none => rfl
  | some k =>
    dsimp only
    rw [h.find?_dict, h.render]
    cases (s.dict r).find? k with
    | none => rfl
    | some e => rfl

lemma item (v i : Value) : t.item (f.on v) (f.on i) = f.on (s.item v i) := by
  have hlabel := h.label v
  cases v with
  | str x => exact textItem_on x i
  | list r => exact h.listItem r i
  | dict r => exact h.dictItem r i
  | _ => exact congrArg (fun l => Except.error (Fault.notSubscriptable l)) hlabel

lemma iteration? (v : Value) : t.iteration? (f.on v) = f.on (s.iteration? v) := by
  cases v with
  | str x =>
    let step (e : Point × Nat) : Value × Value := (.int (Int64.ofNat e.2), .str [e.1])
    have hsteps : f.on (x.zipIdx.map step) = x.zipIdx.map step := List.map_map
    exact congrArg (fun rest => some (Iteration.fixed rest)) hsteps.symm
  | dict r =>
    show some (Iteration.fixed (t.dict (f.on r)).values) = some (.fixed (f.on (s.dict r).values))
    rw [h.dict]
    exact congrArg (fun rest => some (Iteration.fixed rest)) (OrderedMap.values_on ..)
  | _ => rfl

lemma next? (walk : Iteration) : (f.on walk).next? t = f.on (walk.next? s) := by
  cases walk with
  | fixed rest =>
    cases rest with
    | nil => rfl
    | cons e rest => rfl
  | live r next =>
    have hnext : (t.list (f.on r))[next]? = f.on (s.list r)[next]? := by
      rw [h.list, f.getElem?_on]
    have hwalk : f.on (Iteration.live r next) = .live (f.on r) next := rfl
    rw [hwalk, Iteration.next?, Iteration.next?, hnext]
    cases (s.list r)[next]? with
    | none => rfl
    | some v => rfl

lemma dictAttribute? (r : Ref .dict) (x : String) :
    t.dictAttribute? (f.on r) x = f.on (s.dictAttribute? r x) := by
  unfold Store.dictAttribute?
  rw [h.find?_dict]
  cases (s.dict r).find? ⟨"str", Digest.ofText x⟩ with
  | none => rfl
  | some e =>
    obtain ⟨key, value⟩ := e
    cases key <;> rfl

/-! ### Arguments -/

omit h in
lemma exactly_on (want : Nat) (args : List Value) :
    Argument.exactly want (f.on args) = Argument.exactly want args := by
  unfold Argument.exactly
  rw [f.length_on]

omit h in
lemma between_on (low high : Nat) (args : List Value) :
    Argument.between low high (f.on args) = Argument.between low high args := by
  unfold Argument.between
  rw [f.length_on]

lemma text? (args : List Value) (place : Nat) :
    Argument.text? t (f.on args) place = Argument.text? s args place := by
  unfold Argument.text?
  rw [f.getElem?_on]
  cases args[place]? with
  | none => rfl
  | some v =>
    have hlabel := congrArg (fun l => Fault.wrongArgumentAt l (place + 1)) (h.label v)
    cases v with
    | str x => rfl
    | _ => exact congrArg Except.error hlabel

lemma int? (args : List Value) (place : Nat) :
    Argument.int? t (f.on args) place = Argument.int? s args place := by
  unfold Argument.int?
  rw [f.getElem?_on]
  cases args[place]? with
  | none => rfl
  | some v =>
    have hlabel := congrArg (fun l => Fault.wrongArgumentAt l (place + 1)) (h.label v)
    cases v with
    | int n => rfl
    | _ => exact congrArg Except.error hlabel

lemma list? (args : List Value) (place : Nat) :
    Argument.list? t (f.on args) place = f.on (Argument.list? s args place) := by
  unfold Argument.list?
  rw [f.getElem?_on]
  cases args[place]? with
  | none => rfl
  | some v =>
    have hlabel := congrArg (fun l => Fault.wrongArgumentAt l (place + 1)) (h.label v)
    cases v with
    | list r => rfl
    | _ => exact congrArg Except.error hlabel

omit h in
lemma only_on (args : List Value) : Argument.only (f.on args) = f.on (Argument.only args) := by
  match args with
  | [] => rfl
  | [v] => rfl
  | v :: w :: rest =>
    exact congrArg (fun n => Except.error (Fault.wrongArity n 1)) (f.length_on (v :: w :: rest))

lemma onlyInt (args : List Value) : Argument.onlyInt t (f.on args) = Argument.onlyInt s args := by
  unfold Argument.onlyInt
  rw [only_on]
  cases Argument.only args with
  | error e => exact (rfl : Except.error e = Except.error e)
  | ok v =>
    have hlabel := congrArg Fault.wrongArgument (h.label v)
    cases v with
    | int n => exact (rfl : Except.ok n = Except.ok n)
    | _ => exact congrArg Except.error hlabel

lemma onlyText (args : List Value) :
    Argument.onlyText t (f.on args) = Argument.onlyText s args := by
  unfold Argument.onlyText
  rw [only_on]
  cases Argument.only args with
  | error e => exact (rfl : Except.error e = Except.error e)
  | ok v =>
    have hlabel := congrArg Fault.wrongArgument (h.label v)
    cases v with
    | str x => exact (rfl : Except.ok x = Except.ok x)
    | _ => exact congrArg Except.error hlabel

lemma onlyList (args : List Value) :
    Argument.onlyList t (f.on args) = f.on (Argument.onlyList s args) := by
  unfold Argument.onlyList
  rw [only_on]
  cases Argument.only args with
  | error e => rfl
  | ok v =>
    have hlabel := congrArg Fault.wrongArgument (h.label v)
    cases v with
    | list r => rfl
    | _ => exact congrArg Except.error hlabel

/-! ### Methods of strings and lists -/

lemma window (this : Text) (args : List Value) :
    TextMethod.window t this (f.on args) = TextMethod.window s this args := by
  unfold TextMethod.window
  rw [between_on, h.text?, h.int?, h.int?]

lemma filled (this : Text) (args : List Value) :
    TextMethod.filled t this (f.on args) = f.on (TextMethod.filled s this args) := by
  have htexts : (f.on args).map t.render = args.map s.render := f.map_on h.render args
  unfold TextMethod.filled
  rw [htexts, f.length_on]
  split
  · rfl
  · split
    · rfl
    · rfl

lemma pieces (this : Text) (args : List Value) :
    TextMethod.pieces t this (f.on args) = f.on (TextMethod.pieces s this args) := by
  have hsplit (separator : Text) (limit : Int) :
      f.on ((Text.split separator this limit).map Value.str) =
        (Text.split separator this limit).map Value.str :=
    List.map_map
  unfold TextMethod.pieces
  rw [between_on, h.text?, h.int?]
  cases Argument.between 1 2 args with
  | error e => rfl
  | ok _ =>
    cases Argument.text? s args 0 with
    | error e => rfl
    | ok separator =>
      cases Argument.int? s args 1 with
      | error e => rfl
      | ok limit =>
        show (if _ then _ else _) = f.on (if _ then _ else _)
        split
        · rfl
        · exact congrArg Except.ok (hsplit _ _).symm

lemma textMethod (this : Text) (args : List Value) (m : TextMethod) :
    TextMethod.answer t this (f.on args) m = f.on (TextMethod.answer s this args m) := by
  cases m with
  | count | endswith | startswith =>
    unfold TextMethod.answer
    rw [h.window]
    cases TextMethod.window s this args <;> rfl
  | find =>
    unfold TextMethod.answer
    rw [h.window]
    cases TextMethod.window s this args with
    | error e => rfl
    | ok w =>
      have hfound (place : Option Nat) :
          f.on (TextMethod.foundAt place) = TextMethod.foundAt place := by cases place <;> rfl
      exact congrArg (fun v => Except.ok (TextMethod.Answer.value v)) (hfound _).symm
  | format =>
    unfold TextMethod.answer
    rw [h.filled]
    cases TextMethod.filled s this args <;> rfl
  | join =>
    unfold TextMethod.answer
    rw [h.onlyList]
    cases Argument.onlyList s args with
    | error e => rfl
    | ok r =>
      show Except.ok (TextMethod.Answer.value
        (.str (List.intercalate this ((t.list (f.on r)).map t.render)))) = _
      rw [h.list, f.map_on h.render]
      rfl
  | lower | upper =>
    unfold TextMethod.answer
    rw [exactly_on]
    cases Argument.exactly 0 args <;> rfl
  | split =>
    unfold TextMethod.answer
    rw [h.pieces]
    cases TextMethod.pieces s this args <;> rfl
  | strip =>
    unfold TextMethod.answer
    rw [h.onlyText]
    cases Argument.onlyText s args <;> rfl

omit h in
lemma popped_on (elements : List Value) (position : Option Int) :
    ListMethod.popped (f.on elements) position = f.on (ListMethod.popped elements position) := by
  have hgetD (k : Nat) : (f.on elements).getD k .null = f.on (elements.getD k .null) :=
    List.getD_map _ Value.null f.on
  have herase (k : Nat) : (f.on elements).eraseIdx k = f.on (elements.eraseIdx k) :=
    List.eraseIdx_map ..
  unfold ListMethod.popped
  rw [f.isEmpty_on, f.length_on]
  split
  · rfl
  · split
    · rw [herase, hgetD]
      rfl
    · rfl

lemma removed (elements : List Value) (value : Value) :
    ListMethod.removed t (f.on elements) (f.on value) =
      f.on (ListMethod.removed s elements value) := by
  have herase (k : Nat) : (f.on elements).eraseIdx k = f.on (elements.eraseIdx k) :=
    List.eraseIdx_map ..
  have hplace : (f.on elements).findIdx? (t.equal · (f.on value)) =
      elements.findIdx? (s.equal · value) := by
    have hequal : (t.equal · (f.on value)) ∘ f.on = (s.equal · value) :=
      funext fun v => h.equal v value
    show (elements.map f.on).findIdx? _ = _
    rw [List.findIdx?_map, hequal]
  unfold ListMethod.removed
  rw [hplace]
  split
  · rw [herase]
    rfl
  · rfl

lemma listMethod (elements args : List Value) (m : ListMethod) :
    ListMethod.change t (f.on elements) (f.on args) m =
      f.on (ListMethod.change s elements args m) := by
  cases m with
  | append =>
    unfold ListMethod.change
    dsimp only
    rw [f.isEmpty_on, ← f.on_append]
    split
    · rfl
    · rfl
  | extend =>
    unfold ListMethod.change
    dsimp only
    rw [exactly_on, h.list?]
    cases Argument.exactly 1 args with
    | error e => rfl
    | ok _ =>
      cases Argument.list? s args 0 with
      | error e => rfl
      | ok more =>
        have hmore : ((f.on more).map t.list).getD [] = f.on ((more.map s.list).getD []) := by
          cases more with
          | none => rfl
          | some r => exact h.list r
        show Except.ok (⟨f.on elements ++ ((f.on more).map t.list).getD [], none⟩ :
          ListMethod.Change) = _
        rw [hmore, ← f.on_append]
        rfl
  | insert =>
    have hvalue : (f.on args).getD 1 .null = f.on (args.getD 1 .null) :=
      List.getD_map _ Value.null f.on
    have hinsert (k : Nat) (v : Value) :
        (f.on elements).insertIdx k (f.on v) = f.on (elements.insertIdx k v) :=
      (List.map_insertIdx ..).symm
    unfold ListMethod.change
    dsimp only
    rw [exactly_on, h.int?, f.length_on, hvalue]
    cases Argument.exactly 2 args with
    | error e => rfl
    | ok _ =>
      cases Argument.int? s args 0 with
      | error e => rfl
      | ok position =>
        exact congrArg (fun l => Except.ok (⟨l, none⟩ : ListMethod.Change)) (hinsert _ _)
  | pop =>
    unfold ListMethod.change
    dsimp only
    rw [between_on, h.int?]
    cases Argument.between 0 1 args with
    | error e => rfl
    | ok _ =>
      cases Argument.int? s args 0 with
      | error e => rfl
      | ok position => exact popped_on elements position
  | remove =>
    unfold ListMethod.change
    dsimp only
    rw [only_on]
    cases Argument.only args with
    | error e => rfl
    | ok value => exact h.removed elements value
  | reverse =>
    unfold ListMethod.change
    dsimp only
    rw [exactly_on]
    cases Argument.exactly 0 args with
    | error e => rfl
    | ok _ =>
      have hreverse : (f.on elements).reverse = f.on elements.reverse := List.map_reverse.symm
      exact congrArg (fun l => Except.ok (⟨l, none⟩ : ListMethod.Change)) hreverse

/-! ### Operators and builtin functions -/

omit h in
lemma map_integer_on (r : Except Fault Int) :
    f.on (r.map Value.integer) = r.map Value.integer := by
  cases r <;> rfl

omit h in
lemma onIntegers?_on (op : BinaryOp) (m n : Int64) :
    f.on (op.onIntegers? m n) = op.onIntegers? m n := by
  cases op with
  | div | mod | shiftLeft | shiftRight =>
    exact congrArg some (map_integer_on _)
  | _ => rfl

lemma onValues (op : BinaryOp) (a b : Value) :
    op.onValues t (f.on a) (f.on b) = f.on (op.onValues s a b) := by
  have hequal := h.equal a b
  have hlabels (x : String) : Fault.unsupportedOperands x (t.label (f.on a)) (t.label (f.on b)) =
      .unsupportedOperands x (s.label a) (s.label b) := by rw [h.label, h.label]
  cases op with
  | eq => exact congrArg (fun b => Except.ok (Value.bool b)) hequal
  | ne => exact congrArg (fun b => Except.ok (Value.bool !b)) hequal
  | _ => exact congrArg Except.error (hlabels _)

lemma binary (op : BinaryOp) (a b : Value) :
    op.apply t (f.on a) (f.on b) = f.on (op.apply s a b) := by
  have hvalues := h.onValues op a b
  cases a with
  | int m =>
    cases b with
    | int n =>
      show (op.onIntegers? m n).getD (op.onValues t (f.on (.int m)) (f.on (.int n))) =
        f.on ((op.onIntegers? m n).getD (op.onValues s (.int m) (.int n)))
      have hon := onIntegers?_on (f := f) op m n
      cases ho : op.onIntegers? m n with
      | none => exact hvalues
      | some result =>
        rw [ho] at hon
        exact (Option.some_inj.mp hon).symm
    | _ => exact hvalues
  | str x =>
    cases b with
    | str y =>
      cases op with
      | add => rfl
      | _ => exact hvalues
    | _ => exact hvalues
  | _ => exact hvalues

lemma unary (op : UnaryOp) (v : Value) : op.apply t (f.on v) = f.on (op.apply s v) := by
  have hlabel (x : String) := congrArg (Fault.unsupportedOperand x) (h.label v)
  cases op with
  | not => exact congrArg (fun b => Except.ok (Value.bool !b)) (h.truth v)
  | _ =>
    cases v with
    | int n => rfl
    | _ => exact congrArg Except.error (hlabel _)

lemma builtinAnswer (b : Builtin) (args : List Value) :
    b.answer t (f.on args) = f.on (b.answer s args) := by
  cases b with
  | abs | bin | oct | hex =>
    simp only [Builtin.answer, Builtin.inRadix, h.onlyInt]
    cases Argument.onlyInt s args <;> rfl
  | len =>
    simp only [Builtin.answer, only_on]
    cases Argument.only args with
    | error e => rfl
    | ok v =>
      have hlabel := congrArg Fault.noLength (h.label v)
      cases v with
      | str x => rfl
      | list r =>
        show Except.ok (Value.int (Int64.ofNat (t.list (f.on r)).length)) = _
        rw [h.list, f.length_on]
        rfl
      | dict r =>
        show Except.ok (Value.int (Int64.ofNat (t.dict (f.on r)).entries.length)) = _
        rw [h.dict]
        exact congrArg (fun n => Except.ok (Value.int (Int64.ofNat n))) (List.length_map _)
      | _ => exact congrArg Except.error hlabel
  | type =>
    simp only [Builtin.answer, only_on]
    cases Argument.only args with
    | error e => rfl
    | ok v => exact congrArg (fun l => Except.ok (Value.str (Text.ofString l))) (h.label v)
  | print => rfl

lemma builtinOutput (b : Builtin) (args : List Value) :
    b.output t (f.on args) = b.output s args := by
  cases b with
  | print =>
    show Builtin.line ((f.on args).map t.render) = _
    rw [f.map_on h.render]
    rfl
  | _ => rfl

lemma builtinOutcome (b : Builtin) (args : List Value) :
    b.outcome t (f.on args) = f.on (b.outcome s args) := by
  unfold Builtin.outcome
  rw [h.builtinAnswer, f.map_on h.render]
  cases b.answer s args with
  | error e => rfl
  | ok v =>
    cases b with
    | print =>
      show (if _ then _ else _) = f.on (if _ then _ else _)
      split
      · rfl
      · rfl
    | _ => rfl

end Store.Image

end Wei
