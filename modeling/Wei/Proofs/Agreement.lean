import Wei.Proofs.Conduct
import Wei.Proofs.Renaming

/-!
Renamings that agree. What a sound store holds refers to cells that are there, so renamings that
agree about these cells rename it alike. In particular the cells that are still to be made can be
given any later numbers.
-/

namespace Wei

/-- The two renamings agree about the cells that are there. -/
def Renaming.Agree (f g : Renaming) (n : Census) : Prop :=
  ∀ ⦃k : Kind⦄ (r : Ref k), r.Live n → f.on r = g.on r

/-- The class `object`, as a cell of any kind. -/
def Ref.IsObject {k : Kind} (r : Ref k) : Prop := k = .cls ∧ r.index = 0

namespace Renaming

variable {f g e : Renaming} {n n' : Census}

lemma on_isObject (f : Renaming) {k : Kind} {r : Ref k} : (f.on r).IsObject ↔ r.IsObject := by
  refine and_congr_right fun hk => ?_
  subst hk
  have hzero := (f.strictMono .cls).injective.eq_iff (a := r.index) (b := 0)
  rwa [f.object] at hzero

/-- Cells that are still to be made can be given the numbers from any point on. -/
lemma exists_aligned (f : Renaming) (hobject : Store.object.Live n)
    (hlive : ∀ {k : Kind} {r : Ref k}, r.Live n → (f.on r).Live n') :
    ∃ g : Renaming, f.Agree g n ∧ ∀ k u, g.index k (n k + u) = n' k + u := by
  have hmono (k : Kind) :
      StrictMono fun i => if i < n k then f.index k i else n' k + (i - n k) := by
    intro i j hij
    dsimp only
    by_cases hj : j < n k
    · rw [if_pos (hij.trans hj), if_pos hj]
      exact f.strictMono k hij
    · rw [if_neg hj]
      split
      · next hi =>
        have hbelow : f.index k i < n' k := hlive (r := (⟨i⟩ : Ref k)) hi
        omega
      · omega
  refine ⟨⟨fun k i => if i < n k then f.index k i else n' k + (i - n k), hmono,
    (if_pos hobject).trans f.object⟩, fun _ r hr => ?_, fun k u => ?_⟩
  · exact congrArg Ref.mk (if_pos hr).symm
  · dsimp only
    rw [if_neg (by omega), Nat.add_sub_cancel_left]

lemma Agree.refl (f : Renaming) (n : Census) : f.Agree f n := fun _ _ _ => rfl

lemma Agree.trans (h : f.Agree g n) (h' : g.Agree e n') (hn : n ≤ n') : f.Agree e n :=
  fun _ r hr => (h r hr).trans (h' r (hr.mono hn))

section

variable {α κ : Type} [Renamable α]

lemma on_option_congr {x : Option α} (h : ∀ a ∈ x, f.on a = g.on a) : f.on x = g.on x :=
  Option.map_congr h

lemma on_list_congr {x : List α} (h : ∀ a ∈ x, f.on a = g.on a) : f.on x = g.on x :=
  List.map_congr_left h

lemma on_map_congr {x : OrderedMap κ α} (h : ∀ a ∈ x.values, f.on a = g.on a) :
    f.on x = g.on x :=
  OrderedMap.ext_entries (List.map_congr_left fun e he =>
    congrArg (Prod.mk e.1) (h e.2 (List.mem_map_of_mem he)))

end

namespace Agree

variable (h : f.Agree g n)
include h

lemma value {v : Value} (hv : v.Live n) : f.on v = g.on v := by
  cases v with
  | null => rfl
  | bool b => rfl
  | int i => rfl
  | str t => rfl
  | builtin b => rfl
  | list r => exact congrArg Value.list (h r hv)
  | dict r => exact congrArg Value.dict (h r hv)
  | function r => exact congrArg Value.function (h r hv)
  | cls r => exact congrArg Value.cls (h r hv)
  | inst r => exact congrArg Value.inst (h r hv)
  | bound r => exact congrArg Value.bound (h r hv)
  | module r => exact congrArg Value.module (h r hv)
  | info r => exact congrArg Value.info (h r hv)
  | error => cases hv
  | returned => cases hv
  | breaking => cases hv
  | continuing => cases hv

lemma exit {R : Regime} {x : Exit} (hx : x.Allowed R n) : f.on x = g.on x := by
  cases x with
  | returning v => exact congrArg Exit.returning (h.value hx)
  | _ => rfl

lemma binding {b : Binding} (hb : b.value.Live n) : f.on b = g.on b :=
  congrArg (Binding.mk · b.constant) (h.value hb)

lemma receiver {x : Receiver} (hx : x.value.Live n) : f.on x = g.on x := by
  cases x with
  | inst r => exact congrArg Receiver.inst (h r hx)
  | cls r => exact congrArg Receiver.cls (h r hx)

/-- What a sound cell holds is renamed alike. -/
lemma cell {strict : Bool} {k : Kind} {x : Cell k} (hx : Cell.Sound strict n x) :
    f.on x = g.on x := by
  cases k with
  | scope =>
    have hbindings : f.on x.bindings = g.on x.bindings :=
      on_map_congr fun b hb => h.binding (hx.values _ (List.mem_map_of_mem hb))
    have houter : f.on x.outer = g.on x.outer :=
      on_option_congr fun r hr => h r (hx.links ⟨.scope, r⟩
        (List.mem_map_of_mem (Option.mem_toList.mpr hr)))
    exact congrArg₂ Scope.mk hbindings houter
  | list => exact on_list_congr fun v hv => h.value (hx.values v hv)
  | dict =>
    refine on_map_congr fun e he => ?_
    have hmem (v : Value) (hv : v ∈ [e.1, e.2]) : v ∈ Cell.values (k := .dict) x :=
      List.mem_flatMap.mpr ⟨e, he, hv⟩
    exact congrArg₂ Prod.mk (h.value (hx.values _ (hmem e.1 (by simp))))
      (h.value (hx.values _ (hmem e.2 (by simp))))
  | function =>
    have hscope : f.on x.scope = g.on x.scope := h _ (hx.links ⟨.scope, x.scope⟩ List.mem_cons_self)
    have howner : f.on x.owner = g.on x.owner :=
      on_option_congr fun r hr => h r (hx.links ⟨.cls, r⟩
        (List.mem_cons_of_mem _ (List.mem_map_of_mem (Option.mem_toList.mpr hr))))
    show { x with scope := f.on x.scope, owner := f.on x.owner } =
      ({ x with scope := g.on x.scope, owner := g.on x.owner } : Closure)
    rw [hscope, howner]
  | cls =>
    have hlink {j : Kind} {r : Ref j} (hr : ⟨j, r⟩ ∈ Cell.links (k := .cls) x) : f.on r = g.on r :=
      h r (hx.links ⟨j, r⟩ hr)
    have hparent : f.on x.parent = g.on x.parent := on_option_congr fun r hr =>
      hlink (List.mem_append_left _ (List.mem_map_of_mem (Option.mem_toList.mpr hr)))
    have hmembers : f.on x.members = g.on x.members := on_map_congr fun d hd =>
      congrArg (Member.mk · d.constant) (on_option_congr fun v hv => h.value (hx.values v
        (List.mem_append_left _ (List.mem_filterMap.mpr ⟨d, hd, hv⟩))))
    have hmethods : f.on x.methods = g.on x.methods := on_map_congr fun r hr =>
      hlink (List.mem_append_right _ (List.mem_map_of_mem (List.mem_append_left _ hr)))
    have hclassMembers : f.on x.classMembers = g.on x.classMembers := on_map_congr fun b hb =>
      h.binding (hx.values _ (List.mem_append_right _ (List.mem_map_of_mem hb)))
    have hclassMethods : f.on x.classMethods = g.on x.classMethods := on_map_congr fun r hr =>
      hlink (List.mem_append_right _ (List.mem_map_of_mem (List.mem_append_right _ hr)))
    show Class.mk x.name (f.on x.parent) (f.on x.members) (f.on x.methods) (f.on x.classMembers)
      (f.on x.classMethods) = Class.mk x.name (g.on x.parent) _ _ _ _
    rw [hparent, hmembers, hmethods, hclassMembers, hclassMethods]
  | inst =>
    have hcls : f.on x.cls = g.on x.cls := h _ (hx.links ⟨.cls, x.cls⟩ List.mem_cons_self)
    have hmembers : f.on x.members = g.on x.members := on_map_congr fun v hv =>
      on_option_congr fun w hw => h.value (hx.values w (List.mem_filterMap.mpr ⟨v, hv, hw⟩))
    show Instance.mk (f.on x.cls) (f.on x.members) x.initializing = Instance.mk (g.on x.cls) _ _
    rw [hcls, hmembers]
  | bound =>
    have hvalue (v : Value) (hv : v ∈ Cell.values (k := .bound) x) : v.Live n := hx.values v hv
    have hlink (l : Σ j, Ref j) (hl : l ∈ Cell.links (k := .bound) x) : f.on l.2 = g.on l.2 :=
      h l.2 (hx.links l hl)
    cases x with
    | text m t => rfl
    | list m r => exact congrArg (Bound.list m) (h r (hvalue (.list r) List.mem_cons_self))
    | method r q =>
      exact congrArg₂ Bound.method (h r (hvalue (.inst r) List.mem_cons_self))
        (hlink ⟨_, q⟩ List.mem_cons_self)
    | classMethod r q =>
      exact congrArg₂ Bound.classMethod (h r (hvalue (.cls r) List.mem_cons_self))
        (hlink ⟨_, q⟩ List.mem_cons_self)
    | super owner receiver =>
      exact congrArg₂ Bound.super (hlink ⟨_, owner⟩ List.mem_cons_self)
        (h.receiver (hvalue _ List.mem_cons_self))
  | module =>
    exact congrArg (Module.mk x.path · x.exports)
      (h _ (hx.links ⟨.scope, x.scope⟩ List.mem_cons_self))

end Agree

end Renaming

end Wei
