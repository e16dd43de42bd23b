import Wei.Proofs.Exports
import Wei.Proofs.Nearest

/-!
Trees of scopes. A name is read in the nearest scope outwards that binds it, and assigned in that
very scope, if the scope has not declared it a constant. So an assignment is seen from the scopes
from which the name leads there, however many there are in between and whichever names they shadow,
and is seen from no other.

Scopes come about by what is done to them, one thing after the other. Whatever is refused leaves all
scopes as they are, and the rest is on record.
-/

namespace Wei

/-! ### What is done to scopes -/

/-- One thing that is done to scopes. -/
inductive ScopeDeed where
  | root
  | child (r : Ref .scope)
  | declare (r : Ref .scope) (x : String) (v : Value) (constant : Bool)
  | bindParameter (r : Ref .scope) (x : String) (v : Value)
  | assign (r : Ref .scope) (x : String) (v : Value)

namespace ScopeDeed

/-- Does it. -/
def run : ScopeDeed → StoreM Unit
  | root => do let _ ← StoreM.newScope ⟨.empty, none⟩
  | child r => do let _ ← StoreM.childScope r
  | declare r x v constant => StoreM.declare r x v constant
  | bindParameter r x v => StoreM.bindParameter r x v
  | assign r x v => StoreM.assign r x v

/-- The scope to which it is done. -/
def scope? : ScopeDeed → Option (Ref .scope)
  | root => none
  | child r => some r
  | declare r _ _ _ => some r
  | bindParameter r _ _ => some r
  | assign r _ _ => some r

/-- It binds the name in this very scope. -/
def Binds (q : Ref .scope) (y : String) : ScopeDeed → Prop
  | declare r x _ _ => r = q ∧ x = y
  | bindParameter r x _ => r = q ∧ x = y
  | _ => False

end ScopeDeed

namespace Store

/-- **Scopes that have come about by deeds**, with the record of those that were not refused, latest
last. Other things may happen to the store in between. -/
inductive Grown : Store → List ScopeDeed → Prop
  | start {s : Store} : s.scopes = .empty → Grown s []
  | done {s s' : Store} {past : List ScopeDeed} (d : ScopeDeed) :
    Grown s past → (∀ r ∈ d.scope?, r.index < s.scopes.size) → d.run s = .ok () s' →
      Grown s' (past ++ [d])
  | refused {s s' : Store} {past : List ScopeDeed} (d : ScopeDeed) {f : Fault} :
    Grown s past → d.run s = .error f s' → Grown s' past
  | elsewhere {s s' : Store} {past : List ScopeDeed} :
    Grown s past → s'.scopes = s.scopes → Grown s' past

/-- **Where a name leads**: `q` is the nearest scope from `r` outwards that binds it. -/
inductive Resolves (s : Store) (x : String) : Ref .scope → Ref .scope → Prop
  | here {r : Ref .scope} : s.holds r x = true → Resolves s x r r
  | outwards {r outer q : Ref .scope} :
    s.holds r x = false → (s.scope r).outer = some outer → Resolves s x outer q →
      Resolves s x r q

/-- Scopes are older than those inside of them. -/
def OutersFirst (s : Store) : Prop :=
  ∀ r outer, (s.scope r).outer = some outer → outer.index < r.index

end Store

/-! ### Looking outwards -/

namespace Store

variable {s : Store} {r q t : Ref .scope} {x y : String} {b : Binding}

lemma holds_writeBinding :
    (s.writeBinding q x b).holds r y = (s.holds r y || decide (q = r ∧ x = y)) := by
  rw [holds, holds, OrderedMap.contains, OrderedMap.contains, find?_writeBinding]
  split
  · next h => simp [h]
  · next h => simp [h]

lemma isConstant_writeBinding :
    (s.writeBinding q x b).isConstant r y =
      if q = r ∧ x = y then b.constant else s.isConstant r y := by
  rw [isConstant, find?_writeBinding, isConstant]
  split <;> rfl

lemma holds_of_holder? (h : s.holder? r x = some q) : s.holds q x = true :=
  List.find?_some (p := (s.holds · x)) h

lemma lookup?_eq_none_iff : s.lookup? r x = none ↔ s.holder? r x = none := by
  unfold lookup? holder?
  simp [holds, OrderedMap.contains]

/-- **An assignment shows wherever the name leads to the scope in which it is made**, and nowhere
else. -/
lemma lookup?_writeBinding_of_holds (hq : s.holds q x = true) :
    (s.writeBinding q x b).lookup? t y =
      if y = x ∧ s.holder? t x = some q then some b.value else s.lookup? t y := by
  have hread (p : Ref .scope) : ((s.writeBinding q x b).scope p).bindings.find? y =
      if q = p ∧ x = y then some b else (s.scope p).bindings.find? y := find?_writeBinding
  rw [lookup?, chain_writeBinding]
  by_cases hy : y = x
  · subst hy
    rw [findSome?_of_replaced (f := fun p => ((s.scope p).bindings.find? y).map (·.value)) (q := q)]
    · simp only [Option.isSome_map, hread, and_self, if_true, Option.map_some, true_and]
      rfl
    · have hfound : ((s.scope q).bindings.find? y).isSome = true := hq
      simp [hread, hfound]
    · intro p hp
      simp only [hread, Ne.symm hp, false_and, if_false]
  · simp only [hread, Ne.symm hy, hy, and_false, false_and, if_false]
    rfl

namespace OutersFirst

variable (hs : s.OutersFirst)
include hs

lemma chain_eq {outer : Ref .scope} (h : (s.scope r).outer = some outer) :
    s.chain r = r :: s.chain outer := by
  rw [chain, h]
  exact congrArg (r :: ·) (if_pos (hs r outer h))

lemma holder?_of_not_holds {outer : Ref .scope} (hr : s.holds r x = false)
    (h : (s.scope r).outer = some outer) : s.holder? r x = s.holder? outer x := by
  rw [holder?, hs.chain_eq h, List.find?_cons_of_neg (by simp [hr]), holder?]

lemma holder?_of_resolves (h : s.Resolves x r q) : s.holder? r x = some q := by
  induction h with
  | here hr => exact holder?_of_holds hr
  | outwards hr houter _ ih => rw [hs.holder?_of_not_holds hr houter, ih]

lemma resolves_of_holder? {r : Ref .scope} (h : s.holder? r x = some q) : s.Resolves x r q := by
  cases hr : s.holds r x with
  | true =>
    rw [holder?_of_holds hr] at h
    obtain rfl := Option.some_inj.mp h
    exact .here hr
  | false =>
    cases houter : (s.scope r).outer with
    | none =>
      rw [holder?, chain, houter] at h
      simp [hr] at h
    | some outer =>
      have hlt := hs r outer houter
      rw [hs.holder?_of_not_holds hr houter] at h
      exact .outwards hr houter (resolves_of_holder? h)
termination_by r.index

/-- The walk outwards finds the nearest scope that binds the name. -/
lemma holder?_eq_some_iff : s.holder? r x = some q ↔ s.Resolves x r q :=
  ⟨hs.resolves_of_holder?, hs.holder?_of_resolves⟩

end OutersFirst

lemma Resolves.unique (h : s.Resolves x r q) (h' : s.Resolves x r t) : q = t := by
  induction h with
  | here hr =>
    cases h' with
    | here _ => rfl
    | outwards hno _ _ => cases hr.symm.trans hno
  | outwards hno houter _ ih =>
    cases h' with
    | here hr => cases hr.symm.trans hno
    | outwards _ houter' h' =>
      obtain rfl := Option.some_inj.mp (houter.symm.trans houter')
      exact ih h'

end Store

/-! ### What each deed comes to -/

namespace StoreM

variable {s s' : Store} {r q : Ref .scope} {x : String} {v : Value}

lemma assign_of_holder?_eq_none (h : s.holder? r x = none) :
    assign r x v s = .error (.undefinedName x) s := by
  rw [assign, h]

lemma assign_of_constant (h : s.holder? r x = some q) (hc : s.isConstant q x = true) :
    assign r x v s = .error (.constantVariable x) s := by
  rw [assign, h]
  exact if_pos hc

lemma assign_of_variable (h : s.holder? r x = some q) (hc : s.isConstant q x = false) :
    assign r x v s = .ok () (s.writeBinding q x ⟨v, false⟩) := by
  rw [assign, h]
  exact if_neg (by simp [hc])

/-- What has been assigned was found, and is no constant. -/
lemma exists_of_assign_eq_ok (h : assign r x v s = .ok () s') :
    ∃ q, s.holder? r x = some q ∧ s.isConstant q x = false ∧
      s' = s.writeBinding q x ⟨v, false⟩ := by
  cases hq : s.holder? r x with
  | none => cases (assign_of_holder?_eq_none hq).symm.trans h
  | some q =>
    cases hc : s.isConstant q x with
    | true => cases (assign_of_constant hq hc).symm.trans h
    | false =>
      cases (assign_of_variable hq hc).symm.trans h
      exact ⟨q, rfl, hc, rfl⟩

/-- An assignment is refused for want of a meaning. -/
lemma assign_eq_undefined_iff :
    assign r x v s = .error (.undefinedName x) s ↔ s.lookup? r x = none := by
  rw [Store.lookup?_eq_none_iff]
  refine ⟨fun h => ?_, assign_of_holder?_eq_none⟩
  cases hq : s.holder? r x with
  | none => rfl
  | some q =>
    cases hc : s.isConstant q x with
    | true => cases (assign_of_constant hq hc).symm.trans h
    | false => cases (assign_of_variable hq hc).symm.trans h

/-- An assignment is refused because the name leads to a constant. -/
lemma assign_eq_constant_iff :
    assign r x v s = .error (.constantVariable x) s ↔
      ∃ q, s.holder? r x = some q ∧ s.isConstant q x = true := by
  refine ⟨fun h => ?_, fun ⟨q, hq, hc⟩ => assign_of_constant hq hc⟩
  cases hq : s.holder? r x with
  | none => cases (assign_of_holder?_eq_none hq).symm.trans h
  | some q =>
    cases hc : s.isConstant q x with
    | true => exact ⟨q, rfl, hc⟩
    | false => cases (assign_of_variable hq hc).symm.trans h

lemma declare_of_holds {constant : Bool} (h : s.holds r x = true) :
    declare r x v constant s = .error (.redeclaredVariable x) s :=
  if_pos h

lemma declare_of_not_holds {constant : Bool} (h : s.holds r x = false) :
    declare r x v constant s = .ok () (s.writeBinding r x ⟨v, constant⟩) :=
  if_neg (by simp [h])

/-- What has been declared was not bound before. -/
lemma of_declare_eq_ok {constant : Bool} (h : declare r x v constant s = .ok () s') :
    s.holds r x = false ∧ s' = s.writeBinding r x ⟨v, constant⟩ := by
  cases hx : s.holds r x with
  | true => cases (declare_of_holds hx).symm.trans h
  | false =>
    cases (declare_of_not_holds hx).symm.trans h
    exact ⟨rfl, rfl⟩

end StoreM

namespace Store

variable {s s' : Store} {q : Ref .scope} {y : String}

/-- A new scope binds nothing, and the others what they did. -/
lemma bindings_of_push {outer : Option (Ref .scope)}
    (h : s'.scopes = s.scopes.push ⟨.empty, outer⟩) (q : Ref .scope) :
    (s'.scope q).bindings = (s.scope q).bindings := by
  rw [scope, h, Arena.get_push]
  split
  · next hq => rw [scope, Arena.get_of_size_le _ hq.ge]; rfl
  · rfl

lemma holds_congr (h : (s'.scope q).bindings = (s.scope q).bindings) :
    s'.holds q y = s.holds q y := by
  rw [holds, h, holds]

lemma isConstant_congr (h : (s'.scope q).bindings = (s.scope q).bindings) :
    s'.isConstant q y = s.isConstant q y := by
  rw [isConstant, h, isConstant]

lemma isConstant_of_not_holds (h : s.holds q y = false) : s.isConstant q y = false := by
  have hnone : (s.scope q).bindings.find? y = none := by
    simpa [holds, OrderedMap.contains] using h
  rw [isConstant, hnone]
  rfl

lemma OutersFirst.push (hs : s.OutersFirst) {outer : Option (Ref .scope)}
    (houter : ∀ q ∈ outer, q.index < s.scopes.size)
    (h : s'.scopes = s.scopes.push ⟨.empty, outer⟩) : s'.OutersFirst := by
  intro r o ho
  rw [scope, h, Arena.get_push] at ho
  split at ho
  · next hr =>
    have hlt := houter o ho
    omega
  · exact hs r o ho

lemma OutersFirst.writeBinding (hs : s.OutersFirst) (r : Ref .scope) (x : String) (b : Binding) :
    (s.writeBinding r x b).OutersFirst := by
  intro q outer h
  rw [outer_writeBinding] at h
  exact hs q outer h

end Store

namespace ScopeDeed

variable {s s' : Store} {d : ScopeDeed} {q : Ref .scope} {y : String}

/-- **Whatever is refused changes nothing.** -/
lemma eq_of_run_eq_error {f : Fault} (h : d.run s = .error f s') : s' = s := by
  cases d with
  | root => cases h
  | child r => cases h
  | bindParameter r x v => cases h
  | declare r x v constant =>
    cases hx : s.holds r x with
    | true => cases (StoreM.declare_of_holds hx).symm.trans h; rfl
    | false => cases (StoreM.declare_of_not_holds hx).symm.trans h
  | assign r x v =>
    cases hq : s.holder? r x with
    | none => cases (StoreM.assign_of_holder?_eq_none hq).symm.trans h; rfl
    | some q =>
      cases hc : s.isConstant q x with
      | true => cases (StoreM.assign_of_constant hq hc).symm.trans h; rfl
      | false => cases (StoreM.assign_of_variable hq hc).symm.trans h

/-- A name is bound in a scope by what binds it there. -/
lemma holds_of_run (h : d.run s = .ok () s') :
    s'.holds q y = true ↔ s.holds q y = true ∨ d.Binds q y := by
  cases d with
  | root =>
    obtain ⟨⟩ := h
    rw [Store.holds_congr (Store.bindings_of_push rfl q)]
    simp [Binds]
  | child r =>
    obtain ⟨⟩ := h
    rw [Store.holds_congr (Store.bindings_of_push rfl q)]
    simp [Binds]
  | bindParameter r x v =>
    obtain ⟨⟩ := h
    simp [Store.holds_writeBinding, Binds]
  | declare r x v constant =>
    obtain ⟨_, rfl⟩ := StoreM.of_declare_eq_ok h
    simp [Store.holds_writeBinding, Binds]
  | assign r x v =>
    obtain ⟨p, hp, _, rfl⟩ := StoreM.exists_of_assign_eq_ok h
    have hheld : s.holds p x = true := Store.holds_of_holder? hp
    rw [Store.holds_writeBinding]
    constructor
    · intro hy
      rcases (Bool.or_eq_true _ _).mp hy with hy | hy
      · exact .inl hy
      · obtain ⟨rfl, rfl⟩ := of_decide_eq_true hy
        exact .inl hheld
    · rintro (hy | hy)
      · simp [hy]
      · cases hy

/-- A name is a constant of a scope by what declares it so there. -/
lemma isConstant_of_run (h : d.run s = .ok () s') :
    s'.isConstant q y = true ↔ s.isConstant q y = true ∨ ∃ v, d = .declare q y v true := by
  cases d with
  | root =>
    obtain ⟨⟩ := h
    rw [Store.isConstant_congr (Store.bindings_of_push rfl q)]
    simp
  | child r =>
    obtain ⟨⟩ := h
    rw [Store.isConstant_congr (Store.bindings_of_push rfl q)]
    simp
  | bindParameter r x v =>
    -- a parameter that takes the place of a constant stays one
    obtain ⟨⟩ := h
    rw [Store.isConstant_writeBinding]
    split
    · next hq =>
      obtain ⟨rfl, rfl⟩ := hq
      simp
    · simp
  | declare r x v constant =>
    obtain ⟨hx, rfl⟩ := StoreM.of_declare_eq_ok h
    rw [Store.isConstant_writeBinding]
    split
    · next hq =>
      obtain ⟨rfl, rfl⟩ := hq
      simp [Store.isConstant_of_not_holds hx]
    · next hq =>
      have hne : ∀ w, .declare r x v constant ≠ ScopeDeed.declare q y w true := by
        rintro w ⟨⟩
        exact hq ⟨rfl, rfl⟩
      simp only [hne, exists_false, or_false]
  | assign r x v =>
    obtain ⟨p, _, hc, rfl⟩ := StoreM.exists_of_assign_eq_ok h
    rw [Store.isConstant_writeBinding]
    split
    · next hq =>
      obtain ⟨rfl, rfl⟩ := hq
      simp [hc]
    · simp

lemma outersFirst_of_run (hs : s.OutersFirst) (hd : ∀ r ∈ d.scope?, r.index < s.scopes.size)
    (h : d.run s = .ok () s') : s'.OutersFirst := by
  cases d with
  | root =>
    obtain ⟨⟩ := h
    exact hs.push hd rfl
  | child r =>
    obtain ⟨⟩ := h
    exact hs.push hd rfl
  | bindParameter r x v =>
    obtain ⟨⟩ := h
    exact hs.writeBinding r x _
  | declare r x v constant =>
    obtain ⟨_, rfl⟩ := StoreM.of_declare_eq_ok h
    exact hs.writeBinding r x _
  | assign r x v =>
    obtain ⟨p, _, _, rfl⟩ := StoreM.exists_of_assign_eq_ok h
    exact hs.writeBinding p x _

end ScopeDeed

/-! ### Trees that have grown -/

namespace Store

variable {s s' : Store} {past : List ScopeDeed}

/-- The scopes are as the record says: who binds a name has bound it, and a constant has been
declared one. -/
structure Recorded (s : Store) (past : List ScopeDeed) : Prop where
  outersFirst : s.OutersFirst
  holds_iff (q : Ref .scope) (y : String) : s.holds q y = true ↔ ∃ d ∈ past, d.Binds q y
  isConstant_iff (q : Ref .scope) (y : String) :
    s.isConstant q y = true ↔ ∃ v, .declare q y v true ∈ past

lemma Recorded.congr (h : s.Recorded past) (hscopes : s'.scopes = s.scopes) :
    s'.Recorded past := by
  have hread (q : Ref .scope) : s'.scope q = s.scope q := by rw [scope, hscopes, scope]
  refine ⟨fun r outer houter => ?_, fun q y => ?_, fun q y => ?_⟩
  · rw [hread] at houter
    exact h.outersFirst r outer houter
  · rw [holds, hread]
    exact h.holds_iff q y
  · rw [isConstant, hread]
    exact h.isConstant_iff q y

/-- What one more deed adds to the scopes, it adds to the record. -/
lemma Recorded.done (h : s.Recorded past) {d : ScopeDeed}
    (hd : ∀ r ∈ d.scope?, r.index < s.scopes.size) (hrun : d.run s = .ok () s') :
    s'.Recorded (past ++ [d]) := by
  refine ⟨ScopeDeed.outersFirst_of_run h.outersFirst hd hrun, fun q y => ?_, fun q y => ?_⟩
  · rw [ScopeDeed.holds_of_run hrun, h.holds_iff]
    simp [or_and_right, exists_or]
  · rw [ScopeDeed.isConstant_of_run hrun, h.isConstant_iff]
    simp [exists_or, eq_comm]

/-- **A tree that has grown is as its record says.** -/
lemma Grown.recorded (h : s.Grown past) : s.Recorded past := by
  induction h with
  | @start s h =>
    have hblank (q : Ref .scope) : s.scope q = ⟨.empty, none⟩ := by
      rw [scope, h, Arena.get_of_size_le _ (Nat.zero_le _)]
      rfl
    refine ⟨fun r outer houter => ?_, fun q y => ?_, fun q y => ?_⟩
    · rw [hblank] at houter
      cases houter
    · rw [holds, hblank]
      simp [OrderedMap.contains]
    · rw [isConstant, hblank]
      simp
  | done d _ hd hrun ih => exact ih.done hd hrun
  | refused d _ hrun ih => rw [ScopeDeed.eq_of_run_eq_error hrun]; exact ih
  | elsewhere _ hscopes ih => exact ih.congr hscopes

/-- The scopes of a store have grown, whatever happens to it. -/
lemma grown_law (strict : Bool) : Law strict fun s _ => ∃ past, s.Grown past where
  initial := ⟨[], .start rfl⟩
  blank h := h
  edit {s s' _} h hs hp := by
    obtain ⟨past, hp⟩ := hp
    cases h with
    | @newScope outer ho =>
      cases outer with
      | none => exact ⟨_, hp.done .root nofun rfl⟩
      | some q => exact ⟨_, hp.done (.child q) ho rfl⟩
    | @declare r x b hr _ hx =>
      refine ⟨_, hp.done (.declare r x b.value b.constant) ?_ (StoreM.declare_of_not_holds hx)⟩
      rintro q ⟨⟩
      exact hr
    | @bindParameter r x v hr _ hc =>
      refine ⟨_, hp.done (.bindParameter r x v) ?_ ?_⟩
      · rintro q ⟨⟩
        exact hr
      · rw [ScopeDeed.run, StoreM.bindParameter, hc]
    | @assign r x v hr _ hx hc =>
      refine ⟨_, hp.done (.assign r x v) ?_
        (StoreM.assign_of_variable (holder?_of_holds hx) hc)⟩
      rintro q ⟨⟩
      exact hr
    | _ => exact ⟨past, hp.elsewhere rfl⟩
  cacheModule _ _ _ h := h

end Store

/-- **The scopes of every session have grown**, at all times. -/
theorem Engine.Reachable.exists_grown {p : Engine} (hp : p.Reachable false) (i : Nat)
    {m : Machine} (hm : Machine.Run false (p.machine i) m) : ∃ past, m.world.store.Grown past :=
  have law := Store.grown_law false
  law.run hm (hp.sound.machine i) (law.reachable hp i)

/-- **Reading and writing agree in every tree of scopes**, whatever has been done to it before:
scopes have been made, names declared and bound as parameters, variables and constants, at any level
and under names of scopes further out.

* An assignment is refused as one to an undefined name exactly if the name has no meaning, and as
  one to a constant exactly if the nearest scope outwards that binds the name has declared it so.
* Otherwise it is made in that scope. The name then has the new value in the scopes in which it
  leads there, and there is no other change in what a name means in a scope.
* A declaration is refused exactly if the scope itself binds the name: it has been declared or bound
  there.
* Whatever is refused leaves the scopes as they are.

A parameter may take the place of a constant of its scope. The name then is still a constant. -/
theorem Store.Grown.reading_agrees_with_writing {s : Store} {past : List ScopeDeed}
    (h : s.Grown past) :
    (∀ r x v,
      (StoreM.assign r x v s = .error (.undefinedName x) s ↔ s.lookup? r x = none) ∧
      (StoreM.assign r x v s = .error (.constantVariable x) s ↔
        ∃ q w, s.Resolves x r q ∧ .declare q x w true ∈ past) ∧
      (s.lookup? r x ≠ none → (∀ q w, s.Resolves x r q → .declare q x w true ∉ past) →
        ∃ q s', s.Resolves x r q ∧ StoreM.assign r x v s = .ok () s' ∧
          (∀ t, s.Resolves x t q → s'.lookup? t x = some v) ∧
          ∀ t y, ¬ (y = x ∧ s.Resolves x t q) → s'.lookup? t y = s.lookup? t y)) ∧
    (∀ r x v constant, (∃ f s', StoreM.declare r x v constant s = .error f s') ↔
      s.holds r x = true) ∧
    (∀ r x, s.holds r x = true ↔ ∃ d ∈ past, d.Binds r x) ∧
    ∀ (d : ScopeDeed) f s', d.run s = .error f s' → s' = s := by
  have hrec := h.recorded
  have leads {r q : Ref .scope} {x : String} : s.holder? r x = some q ↔ s.Resolves x r q :=
    hrec.outersFirst.holder?_eq_some_iff
  refine ⟨fun r x v => ⟨StoreM.assign_eq_undefined_iff, ?_, ?_⟩, fun r x v constant => ?_,
    hrec.holds_iff, fun d f s' => ScopeDeed.eq_of_run_eq_error⟩
  · rw [StoreM.assign_eq_constant_iff]
    simp only [leads, hrec.isConstant_iff, exists_and_left]
  · intro hfound hfree
    obtain ⟨q, hq⟩ := Option.ne_none_iff_exists'.mp (mt Store.lookup?_eq_none_iff.mpr hfound)
    have hvariable : s.isConstant q x = false := by
      rw [← Bool.not_eq_true, hrec.isConstant_iff]
      rintro ⟨w, hw⟩
      exact hfree q w (leads.mp hq) hw
    have hheld := Store.holds_of_holder? hq
    refine ⟨q, _, leads.mp hq, StoreM.assign_of_variable hq hvariable, fun t ht => ?_,
      fun t y hy => ?_⟩
    · rw [Store.lookup?_writeBinding_of_holds hheld, if_pos ⟨rfl, leads.mpr ht⟩]
    · rw [Store.lookup?_writeBinding_of_holds hheld, if_neg fun hyx => hy ⟨hyx.1, leads.mp hyx.2⟩]
  · cases hx : s.holds r x with
    | true => simp [StoreM.declare_of_holds hx]
    | false => simp [StoreM.declare_of_not_holds hx]

/-- Two scopes are inside of one that has a variable, and one of the two has a constant of the same
name. The assignment in this one is refused, and that in the other one is seen outside. -/
theorem Store.Grown.assignment_beside_constant :
    let past : List ScopeDeed := [.root, .declare ⟨0⟩ "x" (.int 1) false, .child ⟨0⟩,
      .declare ⟨1⟩ "x" (.int 2) true, .child ⟨0⟩]
    ∃ s : Store, s.Grown past ∧
      StoreM.assign ⟨1⟩ "x" (.int 3) s = .error (.constantVariable "x") s ∧
      ∃ s', StoreM.assign ⟨2⟩ "x" (.int 3) s = .ok () s' ∧
        s'.lookup? ⟨0⟩ "x" = some (.int 3) ∧ s'.lookup? ⟨1⟩ "x" = some (.int 2) := by
  intro past
  have h₁ := (Store.Grown.start (s := .initial) rfl).done .root nofun rfl
  have h₂ := h₁.done (.declare ⟨0⟩ "x" (.int 1) false) (by simp [ScopeDeed.scope?])
    (StoreM.declare_of_not_holds (by decide +kernel))
  have h₃ := h₂.done (.child ⟨0⟩) (by simp [ScopeDeed.scope?]; decide +kernel) rfl
  have h₄ := h₃.done (.declare ⟨1⟩ "x" (.int 2) true) (by simp [ScopeDeed.scope?]; decide +kernel)
    (StoreM.declare_of_not_holds (by decide +kernel))
  have h₅ := h₄.done (.child ⟨0⟩) (by simp [ScopeDeed.scope?]; decide +kernel) rfl
  obtain ⟨s, hs, hroot, hfirst, hsecond, houter, hread, hmeans⟩ : ∃ s : Store, s.Grown past ∧
      s.holds ⟨0⟩ "x" = true ∧ s.holds ⟨1⟩ "x" = true ∧ s.holds ⟨2⟩ "x" = false ∧
      (s.scope ⟨2⟩).outer = some ⟨0⟩ ∧ s.lookup? ⟨1⟩ "x" = some (.int 2) ∧
      s.lookup? ⟨2⟩ "x" ≠ none :=
    ⟨_, h₅, by decide +kernel, by decide +kernel, by decide +kernel, by decide +kernel,
      by decide +kernel, by decide +kernel⟩
  have hleads : s.Resolves "x" ⟨2⟩ ⟨0⟩ := .outwards hsecond houter (.here hroot)
  have hfree : ∀ q w, s.Resolves "x" ⟨2⟩ q → .declare q "x" w true ∉ past := by
    intro q w hq
    obtain rfl := hq.unique hleads
    simp [past]
  obtain ⟨hassign, -⟩ := hs.reading_agrees_with_writing
  obtain ⟨q, s', hq, hok, hseen, hother⟩ := (hassign ⟨2⟩ "x" (.int 3)).2.2 hmeans hfree
  obtain rfl := hq.unique hleads
  refine ⟨s, hs, (hassign ⟨1⟩ "x" (.int 3)).2.1.mpr ⟨⟨1⟩, .int 2, .here hfirst, by simp [past]⟩,
    s', hok, hseen ⟨0⟩ (.here hroot), (hother ⟨1⟩ "x" ?_).trans hread⟩
  rintro ⟨-, hq⟩
  cases hq.unique (.here hfirst)

end Wei
