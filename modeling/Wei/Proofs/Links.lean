import Wei.Proofs.ScopeTree
import Wei.Proofs.Super

/-!
Every walk along links ends. Names are looked for from scope to scope and attributes from class to
class, and nothing bounds these walks but the links themselves. Scopes and classes are made by
whatever scripts do, but a link is made with its cell, to a cell that is there already, and it never
changes. So the links of classes lead to `object`, which alone has no parent, and those of scopes to
a scope that has none around it; also while the body of a class is still running, in which others
may descend from it.
-/

namespace Wei

/-! ### Following links -/

section Following

variable {α β : Type} {next : α → Option α} {answer : α → Option β} {a b : α} {line : List α}

/-- **The links lead from `a` along the line**, and there is none at its end. -/
inductive LeadsAlong (next : α → Option α) : α → List α → Prop
  | last {a : α} : next a = none → LeadsAlong next a [a]
  | step {a b : α} {line : List α} :
    next a = some b → LeadsAlong next b line → LeadsAlong next a (a :: line)

/-- **The search along links**, which goes on for as long as it has no answer and there is a link.
Begun at `a`, it follows `n` links and comes to the outcome. -/
inductive Search (next : α → Option α) (answer : α → Option β) : α → Nat → Option β → Prop
  | found {a : α} {b : β} : answer a = some b → Search next answer a 0 (some b)
  | missing {a : α} : answer a = none → next a = none → Search next answer a 0 none
  | step {a b : α} {n : Nat} {o : Option β} :
    answer a = none → next a = some b → Search next answer b n o →
      Search next answer a (n + 1) o

namespace LeadsAlong

/-- Links lead one way only. -/
lemma unique {line' : List α} (h : LeadsAlong next a line) (h' : LeadsAlong next a line') :
    line = line' := by
  induction h generalizing line' with
  | last hnone =>
    cases h' with
    | last _ => rfl
    | step hsome _ => cases hnone.symm.trans hsome
  | step hsome _ ih =>
    cases h' with
    | last hnone => cases hnone.symm.trans hsome
    | step hsome' h' =>
      obtain rfl := Option.some.inj (hsome.symm.trans hsome')
      rw [ih h']

/-- From every place on the line the links lead along the rest of it. -/
lemma of_mem (h : LeadsAlong next a line) (hb : b ∈ line) :
    ∃ rest, LeadsAlong next b rest ∧ rest <:+ line := by
  induction h with
  | last hnone =>
    obtain rfl := List.mem_singleton.mp hb
    exact ⟨_, .last hnone, List.suffix_rfl⟩
  | step hsome hline ih =>
    rcases List.mem_cons.mp hb with rfl | hb
    · exact ⟨_, .step hsome hline, List.suffix_rfl⟩
    · obtain ⟨rest, hrest, hsuffix⟩ := ih hb
      exact ⟨rest, hrest, hsuffix.trans (List.suffix_cons ..)⟩

/-- **A walk that ends comes to no place twice**: from there it would go on as it did before. -/
lemma nodup (h : LeadsAlong next a line) : line.Nodup := by
  induction h with
  | last _ => exact List.pairwise_singleton _ _
  | @step a b line hsome hline ih =>
    refine List.nodup_cons.mpr ⟨fun hmem => ?_, ih⟩
    obtain ⟨rest, hrest, hsuffix⟩ := hline.of_mem hmem
    have hall : rest = a :: line := hrest.unique (.step hsome hline)
    have hle := hsuffix.length_le
    rw [hall, List.length_cons] at hle
    omega

lemma exists_last (h : LeadsAlong next a line) : ∃ z, line.getLast? = some z ∧ next z = none := by
  induction h with
  | last hnone => exact ⟨_, rfl, hnone⟩
  | step _ hline ih =>
    obtain ⟨z, hz, hnone⟩ := ih
    refine ⟨z, ?_, hnone⟩
    rw [List.getLast?_cons, hz]
    rfl

/-- A walk that goes down a rank with every step is no longer than the rank at which it begins. -/
lemma length_le (h : LeadsAlong next a line) (rank : α → Nat)
    (hrank : ∀ a b, next a = some b → rank b < rank a) : line.length ≤ rank a + 1 := by
  induction h with
  | last _ => exact Nat.succ_le_succ (Nat.zero_le _)
  | step hsome _ ih =>
    have hlt := hrank _ _ hsome
    rw [List.length_cons]
    omega

/-- **A search ends where the links do, if not before**, and its outcome is the first answer on the
line. -/
lemma search (h : LeadsAlong next a line) (answer : α → Option β) :
    ∃ n < line.length, Search next answer a n (line.findSome? answer) := by
  induction h with
  | @last a hnone =>
    refine ⟨0, Nat.zero_lt_one, ?_⟩
    cases ha : answer a with
    | some b =>
      rw [List.findSome?_cons, ha]
      exact .found ha
    | none =>
      rw [List.findSome?_cons, ha]
      exact .missing ha hnone
  | @step a b line hsome _ ih =>
    cases ha : answer a with
    | some b =>
      rw [List.findSome?_cons, ha]
      exact ⟨0, Nat.succ_pos _, .found ha⟩
    | none =>
      obtain ⟨n, hn, hsearch⟩ := ih
      rw [List.findSome?_cons, ha]
      exact ⟨n + 1, Nat.succ_lt_succ hn, .step ha hsome hsearch⟩

/-- A search for a place ends as well. -/
lemma search_guard (h : LeadsAlong next a line) (p : α → Bool) :
    ∃ n < line.length, Search next (Option.guard p) a n (line.find? p) := by
  rw [← List.findSome?_guard]
  exact h.search _

end LeadsAlong

end Following

/-! ### The links of classes and scopes -/

namespace Store

variable {strict : Bool} {s s' : Store}

/-- The parent of a class. Only a root has none. -/
def parent? (s : Store) (c : Ref .cls) : Option (Ref .cls) := (s.cls c).parent

/-- The scope around a scope, if there is one. -/
def outer? (s : Store) (r : Ref .scope) : Option (Ref .scope) := (s.scope r).outer

/-- The members of the classes of a line, gathered from its end. -/
def gatheredMembers (s : Store) (line : List (Ref .cls)) : OrderedMap String (Option Value) :=
  line.reverse.foldl
    (fun acc c => (s.cls c).members.entries.foldl (fun acc e => acc.insert e.1 e.2.default) acc)
    .empty

/-- **Links lead to what is older**, and of the classes that are there only `object` has no
parent. -/
structure Rooted (s : Store) : Prop where
  parents : s.ParentsFirst
  outers : s.OutersFirst
  root : ∀ c : Ref .cls, c.Live s.census → s.parent? c = none → c = Store.object

/-- The line of a class is where its parents lead. -/
lemma ParentsFirst.leadsAlong (hs : s.ParentsFirst) (c : Ref .cls) :
    LeadsAlong s.parent? c (s.lineage c) := by
  fun_induction s.lineage c with
  | case1 c ih =>
    cases hc : (s.cls c).parent with
    | none => exact .last hc
    | some parent =>
      have hlt := hs c parent hc
      dsimp only
      rw [if_pos hlt]
      exact .step hc (ih parent hlt)

/-- The chain of a scope is where the scopes around it lead. -/
lemma OutersFirst.leadsAlong (hs : s.OutersFirst) (r : Ref .scope) :
    LeadsAlong s.outer? r (s.chain r) := by
  fun_induction s.chain r with
  | case1 r ih =>
    cases hr : (s.scope r).outer with
    | none => exact .last hr
    | some outer =>
      have hlt := hs r outer hr
      dsimp only
      rw [if_pos hlt]
      exact .step hr (ih outer hlt)

/-- **From every class that is there the parents lead to `object`.** -/
lemma Rooted.getLast?_lineage (hr : s.Rooted) (hs : s.Sound strict) {c : Ref .cls}
    (hc : c.Live s.census) : (s.lineage c).getLast? = some Store.object := by
  obtain ⟨z, hz, hnone⟩ := (hr.parents.leadsAlong c).exists_last
  have hlive : z.Live s.census := hs.lineage_live hc z (List.mem_of_getLast? hz)
  rw [hz, hr.root z hlive hnone]

/-! ### What edits do to links -/

/-- A scope keeps what is around it. Only a new scope gets one around it. -/
lemma Edit.outer_cases (h : Edit strict s s') (r : Ref .scope) :
    (s'.scope r).outer = (s.scope r).outer ∨
      r.index = s.scopes.size ∧ ∀ outer, (s'.scope r).outer = some outer → outer.Live s.census := by
  cases h with
  | @newScope outer hlive =>
    have hget : (s.add (k := .scope) ⟨.empty, outer⟩).scope r =
        if r.index = s.scopes.size then ⟨.empty, outer⟩ else s.scopes.get r.index :=
      Arena.get_push ..
    rw [hget]
    split
    · next hr => exact .inr ⟨hr, hlive⟩
    · exact .inl rfl
  | declare => exact .inl outer_writeBinding
  | bindParameter => exact .inl outer_writeBinding
  | assign => exact .inl outer_writeBinding
  | _ => exact .inl rfl

lemma Edit.outersFirst (h : Edit strict s s') (hs : s.OutersFirst) : s'.OutersFirst := by
  intro r outer houter
  rcases h.outer_cases r with e | ⟨e, hlive⟩
  · rw [e] at houter
    exact hs r outer houter
  · -- what is around a new scope is there already
    rw [e]
    exact hlive outer houter

/-- A class that has come with an edit has a parent. -/
lemma Edit.exists_parent (h : Edit strict s s') {c : Ref .cls} (hc : c.Live s'.census)
    (hnew : ¬ c.Live s.census) : ∃ parent, s'.parent? c = some parent := by
  -- no class comes with what is written to one that is there
  have written {q : Ref .cls} {x : Class} (hq : q.Live s.census)
      (hc : c.Live (s.setClass q x).census) : c.Live s.census := by
    have hsize : (s.classes.set q.index x).size = s.classes.size := Arena.size_set_of_lt _ hq x
    have hlt : c.index < (s.classes.set q.index x).size := hc
    rw [hsize] at hlt
    exact hlt
  cases h with
  | @newClass x parent hparent =>
    refine ⟨parent, ?_⟩
    have hlt : c.index < (s.classes.push (Class.blank x (some parent))).size := hc
    rw [Arena.size_push] at hlt
    have hge : s.classes.size ≤ c.index := Nat.le_of_not_lt hnew
    have hindex : c.index = s.classes.size := by omega
    show ((s.classes.push (Class.blank x (some parent))).get c.index).parent = _
    rw [hindex, Arena.get_push_size]
    rfl
  | addMember hq => exact absurd (written hq hc) hnew
  | addClassMember hq => exact absurd (written hq hc) hnew
  | addMethod hq => exact absurd (written hq hc) hnew
  | addClassMethod hq => exact absurd (written hq hc) hnew
  | setClassMember hq => exact absurd (written hq hc) hnew
  | _ => exact absurd hc hnew

/-- **Every edit keeps links leading to what is older.** -/
lemma Edit.rooted (h : Edit strict s s') (hs : s.Rooted) : s'.Rooted := by
  refine ⟨h.parentsFirst hs.parents, h.outersFirst hs.outers, fun c hc hnone => ?_⟩
  by_cases hold : c.Live s.census
  · have hkept : s'.parent? c = s.parent? c := h.lasts.parent c hold
    exact hs.root c hold (hkept.symm.trans hnone)
  · obtain ⟨parent, hparent⟩ := h.exists_parent hc hold
    cases hparent.symm.trans hnone

lemma rooted_initial : Store.initial.Rooted := by
  refine ⟨kindred_initial.parents, fun r outer houter => ?_, fun c hc _ => ?_⟩
  · have hblank : Store.initial.scope r = default := Arena.get_of_size_le _ (Nat.zero_le _)
    rw [hblank] at houter
    cases houter
  · have hlt : c.index < 1 := hc
    exact congrArg Ref.mk (Nat.lt_one_iff.mp hlt)

/-- **Links lead to what is older at all times.** -/
lemma rooted_law (strict : Bool) : Law strict fun s _ => s.Rooted where
  initial := rooted_initial
  blank h := h
  edit h _ hr := h.rooted hr
  cacheModule _ _ _ h := h

end Store

/-! ### The walks -/

/-- **All walks along links end**, from every class and every scope and for every name. What each
answers is what it finds on its way, and it follows no more links than there are. -/
structure Store.WalksEnd (s : Store) : Prop where
  /-- The parents of a class lead along its line. -/
  lineage (c : Ref .cls) : LeadsAlong s.parent? c (s.lineage c)
  /-- From a class that is there they lead to `object`, by way of no class twice. -/
  ancestors (c : Ref .cls) : c.Live s.census →
    (s.lineage c).getLast? = some Store.object ∧ (s.lineage c).Nodup ∧
      (s.lineage c).length ≤ s.classes.size
  /-- Of all classes that are there `object` alone has no parent. -/
  root (c : Ref .cls) : c.Live s.census → (s.parent? c = none ↔ c = Store.object)
  /-- The scopes around a scope lead along its chain, by way of no scope twice, to one that has none
  around it. -/
  chain (r : Ref .scope) : LeadsAlong s.outer? r (s.chain r) ∧ (s.chain r).Nodup ∧
    (r.Live s.census → (s.chain r).length ≤ s.scopes.size)
  /-- The search for a method of instances. -/
  findMethod (c : Ref .cls) (x : String) : ∃ n < (s.lineage c).length,
    Search s.parent? (fun d => (s.cls d).methods.find? x) c n (s.findMethod? c x)
  /-- The search for the declaration that says whether a member is constant. -/
  isConstantMember (c : Ref .cls) (x : String) : ∃ n < (s.lineage c).length, ∃ declaration,
    Search s.parent? (fun d => (s.cls d).members.find? x) c n declaration ∧
      s.isConstantMember c x = declaration.any (·.constant)
  /-- The search for an attribute of a class that is read. -/
  findSlot (c : Ref .cls) (x : String) : ∃ n < (s.lineage c).length,
    Search s.parent? (fun d => (s.cls d).slot? x) c n (s.findSlot? c x)
  /-- The search for the owner of an attribute of a class that is written. -/
  slotOwner (c : Ref .cls) (x : String) : ∃ n < (s.lineage c).length,
    Search s.parent? (Option.guard fun d => (s.cls d).classMembers.contains x) c n
      ((s.lineage c).find? fun d => (s.cls d).classMembers.contains x)
  /-- The search through `super`, which begins above the owner, if there is anything above. -/
  findSuper (owner : Ref .cls) (receiver : Receiver) (x : String) :
    (s.parent? owner = none → s.findSuper? owner receiver x = none) ∧
    ∀ parent, s.parent? owner = some parent → ∃ n < (s.lineage parent).length,
      Search s.parent? (fun d => (s.cls d).superSlot? receiver x) parent n
        (s.findSuper? owner receiver x)
  /-- The members of a new instance. -/
  flattenedMembers (c : Ref .cls) : ∃ line, LeadsAlong s.parent? c line ∧
    s.flattenedMembers c = s.gatheredMembers line
  /-- The search for what a name means. -/
  lookup (r : Ref .scope) (x : String) : ∃ n < (s.chain r).length,
    Search s.outer? (fun q => ((s.scope q).bindings.find? x).map (·.value)) r n (s.lookup? r x)
  /-- The search for the scope in which a name is assigned. -/
  holder (r : Ref .scope) (x : String) : ∃ n < (s.chain r).length,
    Search s.outer? (Option.guard (s.holds · x)) r n (s.holder? r x)

lemma Store.Rooted.walksEnd {strict : Bool} {s : Store} (hr : s.Rooted) (hs : s.Sound strict) :
    s.WalksEnd where
  lineage := hr.parents.leadsAlong
  ancestors c hc :=
    have hline := hr.parents.leadsAlong c
    ⟨hr.getLast?_lineage hs hc, hline.nodup, (hline.length_le Ref.index hr.parents).trans hc⟩
  root c hc := by
    refine ⟨hr.root c hc, ?_⟩
    rintro rfl
    -- there is nothing older than `object`
    cases hparent : s.parent? Store.object with
    | none => rfl
    | some parent => exact absurd (hr.parents _ parent hparent) (Nat.not_lt_zero _)
  chain r :=
    have hchain := hr.outers.leadsAlong r
    ⟨hchain, hchain.nodup, fun h => (hchain.length_le Ref.index hr.outers).trans h⟩
  findMethod c _ := (hr.parents.leadsAlong c).search _
  isConstantMember c x := by
    obtain ⟨n, hn, hsearch⟩ :=
      (hr.parents.leadsAlong c).search fun d => (s.cls d).members.find? x
    exact ⟨n, hn, _, hsearch, rfl⟩
  findSlot c _ := (hr.parents.leadsAlong c).search _
  slotOwner c _ := (hr.parents.leadsAlong c).search_guard _
  findSuper owner receiver x := by
    refine ⟨fun hnone => ?_, fun parent hparent => ?_⟩
    · rw [hr.parents.findSuper?_eq, above_of_parent_eq_none hnone, List.findSome?_nil]
    · rw [hr.parents.findSuper?_eq, hr.parents.above_eq hparent]
      exact (hr.parents.leadsAlong parent).search _
  flattenedMembers c := ⟨_, hr.parents.leadsAlong c, rfl⟩
  lookup r _ := (hr.outers.leadsAlong r).search _
  holder r _ := (hr.outers.leadsAlong r).search_guard _

/-- **All walks along links end**, in every state that a session can get into during a turn, after
whatever hosts have done before. What expressions and statements come to, definitions of classes
among them, are such states again, whatever stands in them: a class may name itself as its parent,
or one whose body is still running. -/
theorem Engine.Reachable.chain_walks_end {p : Engine} (hp : p.Reachable false) (i : Nat)
    {m : Machine} (hm : Machine.Run false (p.machine i) m) :
    m.world.store.WalksEnd ∧
    ∀ host rounds depth scope, scope.Live m.census →
      let parts := Evaluator.ofDepth (Evaluator.load host) rounds depth
      (∀ e, Machine.Run false m ((parts.expr scope e).after m)) ∧
      ∀ a, Machine.Run false m ((parts.stmt scope a).after m) := by
  have hsound := (hp.sound_and_kindred hm).1
  have law := Store.rooted_law false
  have hrooted := law.run hm (hp.sound.machine i) (law.reachable hp i)
  refine ⟨hrooted.walksEnd hsound.store, fun host rounds depth scope hscope => ?_⟩
  have hparts := Evaluator.sound_of_host host rounds depth
  exact ⟨fun e => (hparts.expr hscope (.of_lax _)).run_after hsound,
    fun a => (hparts.stmt hscope (.of_lax _)).run_after hsound⟩

/-- While the body of a class runs, a function that it calls defines a class that descends from it.
Then, in a block, a class is defined that has its own name for a parent: that is still the class
outside. A class that names itself where there is no other of the name is not made at all. -/
theorem Engine.Reachable.walks_end_above_unfinished_class :
    let host : Host := ⟨.empty ⟨[]⟩, fun _ _ => .syntaxError "", Text.line?⟩
    let start := Engine.initial.newSession false .standard none
    let first := (start.turn 0 (Eval.openModule host "")).2
    let maker : FunctionLiteral := ⟨none, [], [
      .mk 2 (.classDef "B" (some (.name "A")) []),
      .mk 3 (.ret (some (.name "B")))]⟩
    let program : Node := .program ⟨[
      .mk 1 (.classDef "A" none
        [.mk 1 (.member "b" (some (.call (.function maker) [])) false true)]),
      .mk 4 (.block [.mk 4 (.classDef "A" (some (.name "A")) [])]),
      .mk 5 (.classDef "C" (some (.name "C")) [])]⟩
    let second := (first.turn 0 (Eval.evaluate host ⟨12, 1⟩ program ⟨0⟩)).2
    let s := second.store
    s.classes.size = 4 ∧ LeadsAlong s.parent? ⟨2⟩ [⟨2⟩, ⟨1⟩, Store.object] ∧
      LeadsAlong s.parent? ⟨3⟩ [⟨3⟩, ⟨1⟩, Store.object] ∧ s.WalksEnd := by
  intro host start first maker program second s
  have hsecond : second.Reachable false :=
    .evaluate 0 ⟨12, 1⟩ (.openModule 0 host "" (.newSession false .standard none .initial))
      (fun _ _ _ _ => .of_lax _) (.of_lax _) Nat.zero_lt_one
  have hsize : s.classes.size = 4 := by decide +kernel
  have hinner : s.lineage ⟨2⟩ = [⟨2⟩, ⟨1⟩, Store.object] := by decide +kernel
  have hnamesake : s.lineage ⟨3⟩ = [⟨3⟩, ⟨1⟩, Store.object] := by decide +kernel
  -- what the state is is of no importance from here on
  clear_value second
  have hends : s.WalksEnd := (hsecond.chain_walks_end 0 .refl).1
  exact ⟨hsize, hinner ▸ hends.lineage ⟨2⟩, hnamesake ▸ hends.lineage ⟨3⟩, hends⟩

end Wei
