import Wei.Proofs.Construction
import Wei.Proofs.Links

/-!
Flattening and walking agree. A new instance gets its members by going through the line of its class
from the root down, where each class writes over what those above it have declared. Whether a member
is constant is asked later, by walking the line the other way and stopping at the first class that
declares it. Both come upon the same declaration, that of the most derived class, whatever has been
declared again as constant or variable, pending or with a default: so the value with which a member
starts and what protects it go together.
-/

namespace Wei

/-! ### Writing all entries of a map -/

namespace OrderedMap

variable {κ ν μ : Type} [DecidableEq κ]

/-- What is written goes before what was there. -/
lemma find?_foldl_insert (g : μ → ν) {es : List (κ × μ)} (hes : (es.map (·.1)).Nodup)
    (acc : OrderedMap κ ν) (k : κ) :
    (es.foldl (fun acc e => acc.insert e.1 (g e.2)) acc).find? k =
      ((lookup k es).map g).or (acc.find? k) := by
  induction es generalizing acc with
  | nil => rfl
  | cons e rest ih =>
    obtain ⟨hnew, hrest⟩ := List.nodup_cons.mp hes
    rw [List.foldl_cons, ih hrest, find?_insert, lookup]
    by_cases hk : e.1 = k
    · -- the key does not come again
      have hnone : lookup k rest = none := by
        rw [← Option.not_isSome_iff_eq_none, lookup_isSome_iff, ← hk]
        exact hnew
      rw [hnone, if_pos hk, if_pos hk]
      rfl
    · rw [if_neg hk, if_neg hk]

/-- A key goes where it is written first. -/
lemma keys_foldl_insert (g : μ → ν) (es : List (κ × μ)) {acc : OrderedMap κ ν} {names : List κ}
    (hacc : acc.keys = names.eraseDups) :
    (es.foldl (fun acc e => acc.insert e.1 (g e.2)) acc).keys =
      (names ++ es.map (·.1)).eraseDups := by
  induction es generalizing acc names with
  | nil => rw [List.foldl_nil, List.map_nil, List.append_nil, hacc]
  | cons e rest ih =>
    have hstep : (acc.insert e.1 (g e.2)).keys = (names ++ [e.1]).eraseDups := by
      rw [keys_insert, hacc, List.eraseDups_append]
      by_cases he : e.1 ∈ names
      · simp [List.removeAll, he]
      · simp [List.removeAll, he, List.eraseDups_cons]
    rw [List.foldl_cons, ih hstep, List.map_cons, List.append_assoc, List.singleton_append]

end OrderedMap

/-! ### Declarations along a line -/

namespace Store

variable {s t : Store} {line : List (Ref .cls)} {x : String}

/-- The names of members that the classes of a line declare, from its end to its beginning. A name
comes as often as it is declared. -/
def declaredNames (s : Store) (line : List (Ref .cls)) : List String :=
  line.reverse.flatMap fun d => (s.cls d).members.keys

/-- **The declaration that counts**: the class `d` declares the name, and no class that comes before
it on the line does. -/
def Counts (s : Store) (line : List (Ref .cls)) (x : String) (d : Ref .cls) (decl : Member) :
    Prop :=
  ∃ below above, line = below ++ d :: above ∧ (s.cls d).members.find? x = some decl ∧
    ∀ e ∈ below, (s.cls e).members.find? x = none

/-- The classes of the line have the same parents and have declared the same members. -/
def SameDeclarations (s t : Store) (line : List (Ref .cls)) : Prop :=
  ∀ d ∈ line, (t.cls d).parent = (s.cls d).parent ∧ (t.cls d).members = (s.cls d).members

/-- The walk along the line stops at the declaration that counts. -/
lemma findSome?_eq_some_iff_counts {decl : Member} :
    (line.findSome? fun d => (s.cls d).members.find? x) = some decl ↔
      ∃ d, s.Counts line x d decl := by
  rw [List.findSome?_eq_some_iff]
  constructor
  · rintro ⟨below, d, above, h⟩
    exact ⟨d, below, above, h⟩
  · rintro ⟨d, below, above, h⟩
    exact ⟨below, d, above, h⟩

/-- What is declared on the line has a declaration that counts. -/
lemma declares_iff_counts {c : Ref .cls} :
    s.Declares c x ↔ ∃ d decl, s.Counts (s.lineage c) x d decl := by
  have hwalk : s.Declares c x ↔
      ((s.lineage c).findSome? fun d => (s.cls d).members.find? x).isSome = true :=
    List.findSome?_isSome_iff.symm
  rw [hwalk, Option.isSome_iff_exists, exists_comm]
  exact exists_congr fun decl => findSome?_eq_some_iff_counts

/-- The class at the beginning of the line writes over what the others have declared. -/
lemma gatheredMembers_cons (d : Ref .cls) :
    s.gatheredMembers (d :: line) = (s.cls d).members.entries.foldl
      (fun acc e => acc.insert e.1 e.2.default) (s.gatheredMembers line) := by
  rw [gatheredMembers, List.reverse_cons, List.foldl_append]
  rfl

/-- **Members stand in the order in which they are first declared, from the root down.** -/
lemma keys_gatheredMembers (s : Store) (line : List (Ref .cls)) :
    (s.gatheredMembers line).keys = (s.declaredNames line).eraseDups := by
  induction line with
  | nil => rfl
  | cons d line ih =>
    rw [gatheredMembers_cons, OrderedMap.keys_foldl_insert Member.default _ ih, declaredNames,
      declaredNames, List.reverse_cons, List.flatMap_append, List.flatMap_singleton]
    rfl

/-- **A member starts with the default of the declaration at which the walk stops.** -/
lemma find?_gatheredMembers (s : Store) (line : List (Ref .cls)) (x : String) :
    (s.gatheredMembers line).find? x =
      (line.findSome? fun d => (s.cls d).members.find? x).map (·.default) := by
  induction line with
  | nil => rfl
  | cons d line ih =>
    rw [gatheredMembers_cons, OrderedMap.find?_foldl_insert Member.default (s.cls d).members.nodup,
      ih, List.findSome?_cons]
    show (((s.cls d).members.find? x).map (·.default)).or _ = _
    cases (s.cls d).members.find? x with
    | some decl => rfl
    | none => rfl

/-- Whether a member is constant is what the declaration says that counts. -/
lemma isConstantMember_of_counts {c d : Ref .cls} {decl : Member}
    (h : s.Counts (s.lineage c) x d decl) : s.isConstantMember c x = decl.constant := by
  rw [isConstantMember, findSome?_eq_some_iff_counts.mpr ⟨d, h⟩]
  rfl

lemma SameDeclarations.isConstantMember {c : Ref .cls} (h : s.SameDeclarations t (s.lineage c))
    (x : String) : t.isConstantMember c x = s.isConstantMember c x :=
  isConstantMember_congr (fun d hd => (h d hd).1) (fun d hd => (h d hd).2) x

end Store

/-- Once an instance has been constructed, a member is written unless it is constant. -/
lemma StoreM.setInstanceAttribute_of_ended {t : Store} {r : Ref .inst} {x : String}
    (hended : (t.inst r).initializing = false) (hx : (t.inst r).members.contains x = true)
    (v : Value) : setInstanceAttribute r x v t =
      if t.isConstantMember (t.inst r).cls x then .error (.constantAttribute x) t
      else .ok () (t.setInst r
        { t.inst r with members := (t.inst r).members.insert x (some v) }) := by
  have hmember : ¬ (!(t.inst r).members.contains x) = true := by simp [hx]
  have hguard : (!(t.inst r).initializing && t.isConstantMember (t.inst r).cls x) =
      t.isConstantMember (t.inst r).cls x := by
    rw [hended]
    rfl
  unfold setInstanceAttribute
  dsimp only
  rw [if_neg hmember, hguard]

/-! ### The agreement -/

/-- **Flattening and walking agree**, for every line of classes, whatever they declare. The members
of a new instance are the names that the classes of its line declare, each once, in the order of
their first declarations from the root down. Each starts with what the declaration of the most
derived class gives, be it a default or nothing. That declaration also says whether the member is
constant, and so whether it can be written once the construction has ended, for as long as the
classes of the line declare no more. What is not declared is neither a member nor constant. -/
theorem Store.flattening_agrees_with_walking (s : Store) (c : Ref .cls) :
    ∃ r s', StoreM.newInstance c s = .ok r s' ∧ (s'.inst r).cls = c ∧
      (∀ x, x ∈ (s'.inst r).members.keys ↔ s.Declares c x) ∧
      (s'.inst r).members.keys = (s.declaredNames (s.lineage c)).eraseDups ∧
      (∀ x, s.Declares c x → ∃ d decl, s.Counts (s.lineage c) x d decl) ∧
      (∀ x d decl, s.Counts (s.lineage c) x d decl →
        (s'.inst r).members.find? x = some decl.default ∧
        s'.isConstantMember c x = decl.constant ∧
        ∀ t : Store, s.SameDeclarations t (s.lineage c) → (t.inst r).cls = c →
          (t.inst r).initializing = false → (t.inst r).members.contains x = true →
          ∀ v, StoreM.setInstanceAttribute r x v t =
            if decl.constant then .error (.constantAttribute x) t
            else .ok () (t.setInst r
              { t.inst r with members := (t.inst r).members.insert x (some v) })) ∧
      ∀ x, ¬ s.Declares c x →
        (s'.inst r).members.find? x = none ∧ s'.isConstantMember c x = false := by
  let i : Instance := ⟨c, s.gatheredMembers (s.lineage c), true⟩
  have hnew : (s.add (k := .inst) i).inst ⟨s.instances.size⟩ = i := Arena.get_push_size ..
  have hsame : s.SameDeclarations (s.add (k := .inst) i) (s.lineage c) := fun d _ => ⟨rfl, rfl⟩
  have hfind (x : String) := s.find?_gatheredMembers (s.lineage c) x
  refine ⟨⟨s.instances.size⟩, s.add (k := .inst) i, rfl, ?_⟩
  rw [hnew]
  refine ⟨rfl, fun x => mem_keys_flattenedMembers, s.keys_gatheredMembers _,
    fun x => declares_iff_counts.mp, fun x d decl hcounts => ⟨?_, ?_, ?_⟩, fun x hnot => ?_⟩
  · rw [hfind x, findSome?_eq_some_iff_counts.mpr ⟨d, hcounts⟩]
    rfl
  · rw [hsame.isConstantMember, isConstantMember_of_counts hcounts]
  · intro t ht hcls hended hx v
    rw [StoreM.setInstanceAttribute_of_ended hended hx, hcls, ht.isConstantMember,
      isConstantMember_of_counts hcounts]
  · -- the walk finds nothing if there is nothing that counts
    have hwalk : ((s.lineage c).findSome? fun d => (s.cls d).members.find? x) = none := by
      rw [Option.eq_none_iff_forall_ne_some]
      intro decl hdecl
      obtain ⟨d, hcounts⟩ := findSome?_eq_some_iff_counts.mp hdecl
      exact hnot (declares_iff_counts.mpr ⟨d, decl, hcounts⟩)
    refine ⟨?_, ?_⟩
    · rw [hfind x, hwalk]
      rfl
    · rw [hsame.isConstantMember, isConstantMember, hwalk]
      rfl

/-- Of three classes, each the child of the one before, the second declares a variable of the first
again as a constant, and a constant of the first as a variable without a default; the third gives a
pending member of the first a default. -/
theorem Store.flattened_with_members_declared_again :
    let host : Host := ⟨.empty ⟨[]⟩, fun _ _ => .syntaxError "", Text.line?⟩
    let start := Engine.initial.newSession false .standard none
    let first := (start.turn 0 (Eval.openModule host "")).2
    let member (x : String) (value : Option Int) (constant : Bool) : Stmt :=
      .mk 1 (.member x (value.map fun n => .literal (.int n)) constant false)
    let program : Node := .program ⟨[
      .mk 1 (.classDef "A" none
        [member "x" (some 1) false, member "y" (some 2) true, member "z" none false]),
      .mk 2 (.classDef "B" (some (.name "A")) [member "x" (some 3) true, member "y" none false]),
      .mk 3 (.classDef "C" (some (.name "B"))
        [member "w" (some 4) false, member "z" (some 5) false])]⟩
    let s := (first.turn 0 (Eval.evaluate host ⟨8, 1⟩ program ⟨0⟩)).2.store
    ∃ r s', StoreM.newInstance ⟨3⟩ s = .ok r s' ∧
      (s'.inst r).members.keys = ["x", "y", "z", "w"] ∧
      (s'.inst r).members.find? "x" = some (some (.int 3)) ∧
      s'.isConstantMember ⟨3⟩ "x" = true ∧
      (s'.inst r).members.find? "y" = some none ∧ s'.isConstantMember ⟨3⟩ "y" = false ∧
      (s'.inst r).members.find? "z" = some (some (.int 5)) := by
  intro host start first member program s
  have hline : s.lineage ⟨3⟩ = [⟨3⟩, ⟨2⟩, ⟨1⟩, ⟨0⟩] := by decide +kernel
  have hnames : (s.declaredNames [⟨3⟩, ⟨2⟩, ⟨1⟩, ⟨0⟩]).eraseDups = ["x", "y", "z", "w"] := by
    decide +kernel
  have hx : (s.cls ⟨2⟩).members.find? "x" = some ⟨some (.int 3), true⟩ := by decide +kernel
  have hy : (s.cls ⟨2⟩).members.find? "y" = some ⟨none, false⟩ := by decide +kernel
  have hz : (s.cls ⟨3⟩).members.find? "z" = some ⟨some (.int 5), false⟩ := by decide +kernel
  have hnone : (s.cls ⟨3⟩).members.find? "x" = none ∧ (s.cls ⟨3⟩).members.find? "y" = none := by
    decide +kernel
  -- what the state is is of no importance from here on
  clear_value s
  obtain ⟨r, s', hnew, -, -, hkeys, -, hcounts, -⟩ := s.flattening_agrees_with_walking ⟨3⟩
  rw [hline] at hkeys hcounts
  have hcx : s.Counts [⟨3⟩, ⟨2⟩, ⟨1⟩, ⟨0⟩] "x" ⟨2⟩ ⟨some (.int 3), true⟩ :=
    ⟨[⟨3⟩], [⟨1⟩, ⟨0⟩], rfl, hx, by simp [hnone.1]⟩
  have hcy : s.Counts [⟨3⟩, ⟨2⟩, ⟨1⟩, ⟨0⟩] "y" ⟨2⟩ ⟨none, false⟩ :=
    ⟨[⟨3⟩], [⟨1⟩, ⟨0⟩], rfl, hy, by simp [hnone.2]⟩
  have hcz : s.Counts [⟨3⟩, ⟨2⟩, ⟨1⟩, ⟨0⟩] "z" ⟨3⟩ ⟨some (.int 5), false⟩ :=
    ⟨[], [⟨2⟩, ⟨1⟩, ⟨0⟩], rfl, hz, by simp⟩
  obtain ⟨hxvalue, hxconstant, -⟩ := hcounts _ _ _ hcx
  obtain ⟨hyvalue, hyconstant, -⟩ := hcounts _ _ _ hcy
  obtain ⟨hzvalue, -, -⟩ := hcounts _ _ _ hcz
  exact ⟨r, s', hnew, hkeys.trans hnames, hxvalue, hxconstant, hyvalue, hyconstant, hzvalue⟩

end Wei
