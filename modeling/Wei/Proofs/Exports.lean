import Wei.Proofs.After
import Wei.Proofs.Reachable

/-!
What a module exports is there. A name is exported only when the scope of the module binds it, and
no binding is ever taken away. So whoever gets hold of a module finds under each of its exports what
its scope binds, and writes to that very binding, whatever the module is in the middle of: while its
text still runs, after it has failed, or when a function or a block of it has exported something.
-/

namespace Wei

/-! ### Bindings and what they mean -/

namespace Store

variable {s : Store} {r q : Ref .scope} {x : String} {b : Binding}

lemma holds_eq_true_iff : s.holds r x = true ↔ ∃ b, (s.scope r).bindings.find? x = some b :=
  Option.isSome_iff_exists

/-- A name that a scope binds itself is looked for no further. -/
lemma holder?_of_holds (h : s.holds r x = true) : s.holder? r x = some r := by
  rw [holder?, chain]
  exact List.find?_cons_of_pos h

lemma lookup?_of_find? (h : (s.scope r).bindings.find? x = some b) :
    s.lookup? r x = some b.value := by
  rw [lookup?, chain, List.findSome?_cons, h]
  rfl

lemma isConstant_of_find? (h : (s.scope r).bindings.find? x = some b) :
    s.isConstant r x = b.constant := by
  rw [isConstant, h]
  rfl

lemma outer_writeBinding : ((s.writeBinding r x b).scope q).outer = (s.scope q).outer := by
  rw [writeBinding, scope_setScope]
  split
  · next h => rw [h]
  · rfl

lemma find?_writeBinding {y : String} :
    ((s.writeBinding r x b).scope q).bindings.find? y =
      if r = q ∧ x = y then some b else (s.scope q).bindings.find? y := by
  rw [writeBinding, scope_setScope]
  split
  · next h =>
    subst h
    simp only [OrderedMap.find?_insert, true_and]
  · next h => rw [if_neg fun hq => h hq.1]

/-- Scopes stay where they are when a name is bound. -/
lemma chain_writeBinding (q : Ref .scope) : (s.writeBinding r x b).chain q = s.chain q := by
  fun_induction s.chain q with
  | case1 q ih =>
    rw [chain, outer_writeBinding]
    congr 1
    split
    · rfl
    · next outer _ =>
      split
      · next hlt => exact ih outer hlt
      · rfl

/-- **What is bound is seen at once**, from wherever the name leads to this scope. -/
lemma lookup?_writeBinding (h : s.holder? q x = some r) :
    (s.writeBinding r x b).lookup? q x = some b.value := by
  obtain ⟨hr, nearer, farther, hchain, hnot⟩ := List.find?_eq_some_iff_append.mp h
  -- the scopes on the way do not bind the name, and go on not to
  have hnearer : nearer.findSome? (fun q =>
      (((s.writeBinding r x b).scope q).bindings.find? x).map (·.value)) = none := by
    refine List.findSome?_eq_none_iff.mpr fun q hq => ?_
    have hq : s.holds q x = false := by simpa using hnot q hq
    have hne : r ≠ q := by
      rintro rfl
      exact absurd hr (hq ▸ Bool.false_ne_true)
    rw [find?_writeBinding, if_neg fun h => hne h.1,
      Option.not_isSome_iff_eq_none.mp (Bool.eq_false_iff.mp hq)]
    rfl
  rw [lookup?, chain_writeBinding, hchain, List.findSome?_append, hnearer, Option.none_or,
    List.findSome?_cons, find?_writeBinding, if_pos ⟨rfl, rfl⟩]
  rfl

end Store

/-! ### Exports are backed by bindings -/

namespace Store

/-- The scope of a module binds what the module exports. -/
def Backed (s : Store) : Prop :=
  ∀ (r : Ref .module) (x : String), x ∈ (s.module r).exports →
    s.holds (s.module r).scope x = true

variable {strict : Bool} {s s' : Store}

/-- No binding is ever taken away. -/
lemma Edit.holds_mono (h : Edit strict s s') {r : Ref .scope} {x : String}
    (hx : s.holds r x = true) : s'.holds r x = true := by
  have write (q : Ref .scope) (y : String) (b : Binding) :
      (s.writeBinding q y b).holds r x = true := by
    rw [holds, OrderedMap.contains, find?_writeBinding]
    split
    · rfl
    · exact hx
  cases h with
  | newScope =>
    have hne : r.index ≠ s.scopes.size := by
      intro hr
      have hblank : s.scope r = default := Arena.get_of_size_le _ hr.ge
      rw [holds, hblank] at hx
      cases hx
    show Scope.bindings ((s.scopes.push _).get r.index) |>.contains x
    rw [Arena.get_push_of_ne _ _ hne]
    exact hx
  | declare => exact write ..
  | bindParameter => exact write ..
  | assign => exact write ..
  | _ => exact hx

/-- A module keeps its scope, and what it exports it has exported before, or the scope binds it. -/
lemma Edit.exports_cases (h : Edit strict s s') {r : Ref .module} {x : String}
    (hx : x ∈ (s'.module r).exports) : (s'.module r).scope = (s.module r).scope ∧
      (x ∈ (s.module r).exports ∨ s.holds (s.module r).scope x = true) := by
  cases h with
  | @newModule path scope =>
    have hne : r.index ≠ s.modules.size := by
      intro hr
      have hnew : (s.add (k := .module) ⟨path, scope, []⟩).module r = ⟨path, scope, []⟩ := by
        show (s.modules.push _).get r.index = _
        rw [hr, Arena.get_push_size]
      rw [hnew] at hx
      cases hx
    have hread : (s.add (k := .module) ⟨path, scope, []⟩).module r = s.module r :=
      Arena.get_push_of_ne _ _ hne
    rw [hread] at hx ⊢
    exact ⟨rfl, .inl hx⟩
  | @exportName q y hq hheld =>
    rw [module_setModule] at hx ⊢
    split at hx
    · next e =>
      subst e
      rw [if_pos rfl]
      refine ⟨rfl, ?_⟩
      rcases List.mem_insert_iff.mp hx with rfl | hx
      · exact .inr hheld
      · exact .inl hx
    · next e =>
      rw [if_neg e]
      exact ⟨rfl, .inl hx⟩
  | _ => exact ⟨rfl, .inl hx⟩

/-- **What modules export stays backed**, whatever happens to the store. -/
lemma backed_law (strict : Bool) : Law strict fun s _ => s.Backed where
  initial r x hx := by
    rw [show Store.initial.module r = default from Arena.get_of_size_le _ (Nat.zero_le _)] at hx
    cases hx
  blank h := h
  edit {s s' _} h _ hs r x hx := by
    obtain ⟨hscope, hx⟩ := h.exports_cases hx
    rw [hscope]
    refine h.holds_mono ?_
    rcases hx with hx | hheld
    · exact hs r x hx
    · exact hheld
  cacheModule _ _ _ h := h

end Store

/-! ### Attributes of modules -/

namespace StoreM

variable {s : Store} {r : Ref .module} {x : String} {b : Binding}

/-- **Reading an export** answers what the scope binds now. -/
lemma getAttribute_of_export (hx : x ∈ (s.module r).exports)
    (hb : (s.scope (s.module r).scope).bindings.find? x = some b) :
    getAttribute (.module r) x s = .ok b.value s := by
  have hfound : attribute? (.module r) x s = .ok (some b.value) s := by
    refine congrArg (EStateM.Result.ok · s) ((if_pos (List.elem_eq_true_of_mem hx)).trans ?_)
    exact Store.lookup?_of_find? hb
  exact EStateM.bind_of_ok hfound

lemma getAttribute_of_not_export (hx : x ∉ (s.module r).exports) :
    getAttribute (.module r) x s = .error (.noAttribute "module" x) s := by
  have hnone : attribute? (.module r) x s = .ok none s :=
    congrArg (EStateM.Result.ok · s) (if_neg (by simpa using hx))
  exact EStateM.bind_of_ok hnone

/-- What writing an attribute of a module comes to. -/
lemma setAttribute_module (v : Value) :
    setAttribute (.module r) x v s =
      if x ∈ (s.module r).exports then assign (s.module r).scope x v s
      else .error (.noAttribute "module" x) s := by
  have hset : setModuleAttribute r x v s =
      if x ∈ (s.module r).exports then assign (s.module r).scope x v s
      else .error (.noAttribute "module" x) s := by
    show (if (s.module r).exports.contains x then assign (s.module r).scope x v
      else throw (.noAttribute "module" x) : StoreM Unit) s = _
    by_cases hx : x ∈ (s.module r).exports
    · rw [if_pos (List.elem_eq_true_of_mem hx), if_pos hx]
    · rw [if_neg (by simpa using hx), if_neg hx]
      rfl
  rw [← hset]
  cases hres : setModuleAttribute r x v s with
  | ok u s' =>
    have htry : trySetAttribute (.module r) x v s = .ok true s' := EStateM.bind_of_ok hres
    exact EStateM.bind_of_ok htry
  | error f s' =>
    have htry : trySetAttribute (.module r) x v s = .error f s' := EStateM.bind_of_error hres
    exact EStateM.bind_of_error htry

/-- **Writing an export** writes what the scope binds, unless it is a constant. -/
lemma setAttribute_of_export (hx : x ∈ (s.module r).exports)
    (hb : (s.scope (s.module r).scope).bindings.find? x = some b) (v : Value) :
    setAttribute (.module r) x v s =
      if b.constant then .error (.constantVariable x) s
      else .ok () (s.writeBinding (s.module r).scope x ⟨v, false⟩) := by
  rw [setAttribute_module, if_pos hx, assign,
    Store.holder?_of_holds (Store.holds_eq_true_iff.mpr ⟨b, hb⟩)]
  dsimp only
  rw [Store.isConstant_of_find? hb]

end StoreM

/-! ### What importers see -/

namespace Eval

variable {α : Type} {x : StoreM α} {m : Machine}

lemma onStore_of_ok {a : α} {s : Store} (h : x m.world.store = .ok a s) :
    onStore x m = .ok a { m with world := { m.world with store := s } } := by
  rw [onStore_eq, h]

lemma onStore_of_error {f : Fault} (h : x m.world.store = .error f m.world.store) :
    onStore x m = .error (.fault f) m := by
  rw [onStore_eq, h]

end Eval

lemma Evaluator.name_of_lookup? {m : Machine} {scope : Ref .scope} {x : String} {v : Value}
    (h : m.world.store.lookup? scope x = some v) : Evaluator.name scope x m = .ok v m := by
  unfold Evaluator.name
  refine (EStateM.bind_of_ok (show Eval.store m = .ok m.world.store m from rfl)).trans ?_
  rw [h]
  rfl

/-- **Exports are backed by bindings**, in every state that a session can get into during a turn,
after whatever hosts have done before: the scope of a module binds all that the module exports.

Wherever an expression answers a module, its attribute of a name that the module exports is what the
scope of the module binds to the name at that time. An assignment to it writes that very binding, so
that it is seen from every scope in which the name leads there, those of the functions of the module
among them, or the binding is a constant and stays. A name that the module does not export is no
attribute, neither for reading nor for writing, and nothing changes. -/
theorem Engine.Reachable.exports_are_backed {p : Engine} (hp : p.Reachable false) (i : Nat)
    {m : Machine} (hm : Machine.Run false (p.machine i) m) :
    (∀ (r : Ref .module) (x : String), x ∈ (m.world.store.module r).exports →
      m.world.store.holds (m.world.store.module r).scope x = true) ∧
    ∀ (host : Host) (rounds depth : Nat) (scope : Ref .scope) (e : Expr) (r : Ref .module)
      (m' : Machine), scope.Live m.census →
      let parts := Evaluator.ofDepth (Evaluator.load host) rounds depth
      let whole := Evaluator.ofDepth (Evaluator.load host) rounds (depth + 1)
      let s := m'.world.store
      parts.expr scope e m = .ok (.module r) m' →
      ∀ x : String,
        (x ∈ (s.module r).exports →
          ∃ b, (s.scope (s.module r).scope).bindings.find? x = some b ∧
            whole.expr scope (.attr e x) m = .ok b.value m' ∧
            (b.constant = true → ∀ v, parts.assign scope v (.attr e x) m =
              .error (.fault (.constantVariable x)) m') ∧
            (b.constant = false → ∀ v,
              let s' := s.writeBinding (s.module r).scope x ⟨v, false⟩
              parts.assign scope v (.attr e x) m =
                .ok () { m' with world := { m'.world with store := s' } } ∧
              ∀ q, s.holder? q x = some (s.module r).scope → s'.lookup? q x = some v)) ∧
        (x ∉ (s.module r).exports →
          whole.expr scope (.attr e x) m = .error (.fault (.noAttribute "module" x)) m' ∧
          ∀ v, parts.assign scope v (.attr e x) m =
            .error (.fault (.noAttribute "module" x)) m') := by
  have law := Store.backed_law false
  have hsound := hp.sound.machine i
  have backed {m' : Machine} (hm' : Machine.Run false (p.machine i) m') :
      m'.world.store.Backed := law.run hm' hsound (law.reachable hp i)
  refine ⟨backed hm, ?_⟩
  intro host rounds depth scope e r m' hscope parts whole s he x
  -- what has been evaluated has come to a state of the turn
  have hm' : Machine.Run false (p.machine i) m' := by
    have hsound' : m.Sound false :=
      Conduct.Run.sound (C := Machine.conduct (.lenient false)) hm hsound
    have hcomes := (Evaluator.sound_of_host host rounds depth).expr hscope
      (.of_lax e.conforms) hsound'
    rw [he] at hcomes
    exact hm.trans hcomes.1
  have hread : whole.expr scope (.attr e x) m =
      Eval.onStore (StoreM.getAttribute (.module r) x) m' := EStateM.bind_of_ok he
  have hwrite (v : Value) : parts.assign scope v (.attr e x) m =
      Eval.onStore (StoreM.setAttribute (.module r) x v) m' := EStateM.bind_of_ok he
  refine ⟨fun hx => ?_, fun hx => ⟨?_, fun v => ?_⟩⟩
  · obtain ⟨b, hb⟩ := Store.holds_eq_true_iff.mp (backed hm' r x hx)
    refine ⟨b, hb, hread.trans (Eval.onStore_of_ok (StoreM.getAttribute_of_export hx hb)),
      fun hc v => ?_, fun hc v => ⟨?_, fun q hq => Store.lookup?_writeBinding hq⟩⟩
    · refine (hwrite v).trans (Eval.onStore_of_error ?_)
      rw [StoreM.setAttribute_of_export hx hb, if_pos hc]
    · refine (hwrite v).trans (Eval.onStore_of_ok ?_)
      rw [StoreM.setAttribute_of_export hx hb, if_neg (by rw [hc]; exact Bool.false_ne_true)]
  · exact hread.trans (Eval.onStore_of_error (StoreM.getAttribute_of_not_export hx))
  · refine (hwrite v).trans (Eval.onStore_of_error ?_)
    rw [StoreM.setAttribute_module, if_neg hx]

/-- A module exports a variable in a function of its own, and fails after that. Whoever imports it
again finds the variable, and what is assigned to it is seen by the function. -/
theorem Engine.Reachable.export_of_failed_module :
    let body : List Stmt := [.mk 1 (.declare "x" (some (.literal (.int 1))) false),
      .mk 2 (.define ⟨some "f", [], [.mk 2 (.exports ["x", "ghost"])]⟩),
      .mk 3 (.eval (.call (.name "f") []))]
    let host : Host := ⟨(FileTree.empty ⟨[]⟩).write "lib.wei" (.file "".toUTF8),
      fun _ _ => .program ⟨body⟩, Text.line?⟩
    let lib : Expr := .load (.literal (.str "lib"))
    let start := Engine.initial.newSession false .standard none
    let first := (start.turn 0 (Eval.openModule host "")).2
    let second := (first.turn 0 (Eval.evaluate host ⟨9, 1⟩ (.expr lib) ⟨0⟩)).2
    let third := (second.turn 0 (Eval.evaluate host ⟨9, 1⟩
      (.stmt (.mk 1 (.declare "m" (some lib) false))) ⟨0⟩)).2
    let m := third.machine 0
    let s := m.world.store
    (s.module ⟨1⟩).exports = ["x"] ∧ (s.function ⟨0⟩).scope = ⟨1⟩ ∧
    (Evaluator.ofDepth (Evaluator.load host) 1 2).expr ⟨0⟩ (.attr (.name "m") "x") m =
      .ok (.int 1) m ∧
    let s' := s.writeBinding ⟨1⟩ "x" ⟨.int 2, false⟩
    (Evaluator.ofDepth (Evaluator.load host) 1 1).assign ⟨0⟩ (.int 2) (.attr (.name "m") "x") m =
      .ok () { m with world := { m.world with store := s' } } ∧
    s'.lookup? ⟨1⟩ "x" = some (.int 2) := by
  intro body host lib start first second third m s
  have hsecond : second.Reachable false :=
    .evaluate 0 ⟨9, 1⟩ (.openModule 0 host "" (.newSession false .standard none .initial))
      (fun _ _ _ _ => .of_lax _) (.of_lax _) Nat.zero_lt_one
  have hscope : 0 < second.store.scopes.size := by decide +kernel
  have hthird : third.Reachable false :=
    .evaluate 0 ⟨9, 1⟩ hsecond (fun _ _ _ _ => .of_lax _) (.of_lax _) hscope
  have hlive : 0 < third.store.scopes.size := by decide +kernel
  have hexports : (s.module ⟨1⟩).exports = ["x"] := by decide +kernel
  have hmodule : (s.module ⟨1⟩).scope = ⟨1⟩ := by decide +kernel
  have hfunction : (s.function ⟨0⟩).scope = ⟨1⟩ := by decide +kernel
  have hbound : (s.scope ⟨1⟩).bindings.find? "x" = some ⟨.int 1, false⟩ := by decide +kernel
  have hname : s.lookup? ⟨0⟩ "m" = some (.module ⟨1⟩) := by decide +kernel
  have hholder : s.holder? ⟨1⟩ "x" = some ⟨1⟩ := by decide +kernel
  -- what the state is is of no importance from here on
  clear_value third
  have hm : (Evaluator.ofDepth (Evaluator.load host) 1 1).expr ⟨0⟩ (.name "m") m =
      .ok (.module ⟨1⟩) m :=
    Evaluator.name_of_lookup? hname
  have hx := ((hthird.exports_are_backed 0 .refl).2 host 1 1 ⟨0⟩ (.name "m") ⟨1⟩ m hlive hm "x").1
  rw [hmodule] at hx
  obtain ⟨b, hb, hread, -, hwrite⟩ := hx (hexports ▸ List.mem_singleton_self "x")
  obtain rfl : ⟨.int 1, false⟩ = b := Option.some_inj.mp (hbound.symm.trans hb)
  obtain ⟨hassign, hseen⟩ := hwrite rfl (.int 2)
  exact ⟨hexports, hfunction, hread, hassign, hseen ⟨1⟩ hholder⟩

end Wei
