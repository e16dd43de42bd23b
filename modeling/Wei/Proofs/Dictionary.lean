import Mathlib.Data.Finset.Card
import Mathlib.Data.List.Induction
import Wei.Proofs.Exports

/-!
What dictionaries remember. A dictionary is given pairs of a key and a value, by a literal when it
is made and by assignments after that. It keeps one pair for each hash key: the last one that came,
in the place of the first. Everything that reads a dictionary, by item, by attribute, by walking
through it, by its length or by its text, tells the same story about the pairs that it was given.
-/

namespace Wei

namespace OrderedMap

variable {κ ν : Type}

lemma size_eq_length_keys (m : OrderedMap κ ν) : m.size = m.keys.length := (List.length_map _).symm

/-- The values are those of the keys, in the order of these. -/
lemma values_eq_filterMap_find? [DecidableEq κ] (m : OrderedMap κ ν) :
    m.values = m.keys.filterMap m.find? := by
  rw [keys, values, List.filterMap_map, ← List.filterMap_eq_map]
  refine List.filterMap_congr fun e he => ?_
  exact (find?_eq_some_iff.mpr he).symm

end OrderedMap

/-! ### Pairs, one after the other -/

/-- The keys and values that a dictionary is given, one pair after the other. -/
abbrev Writes := List (Value × Value)

/-- Takes a pair in. One whose key has no hash key is refused. -/
def Dict.give (d : Dict) (w : Value × Value) : Dict :=
  match w.1.hashKey? with
  | some k => d.insert k w
  | none => d

namespace Writes

/-- The hash keys that were given, each one once, in the order in which they first came. A pair
whose key has none counts for nothing. -/
def hashKeys (ws : Writes) : List HashKey := (ws.filterMap (·.1.hashKey?)).eraseDups

/-- The last pair that was given under a hash key. -/
def last? (ws : Writes) (k : HashKey) : Option (Value × Value) :=
  ws.reverse.find? (·.1.hashKey? = some k)

/-- What there is to list: for each hash key, in the order in which they first came, the last
pair. -/
def listing (ws : Writes) : List (Value × Value) := ws.hashKeys.filterMap ws.last?

/-- The dictionary that has been given the pairs. -/
def dict (ws : Writes) : Dict := ws.foldl Dict.give .empty

variable {ws : Writes} {w : Value × Value} {k : HashKey}

lemma hashKeys_concat_of_some (h : w.1.hashKey? = some k) : Writes.hashKeys (ws ++ [w]) =
    if k ∈ ws.hashKeys then ws.hashKeys else ws.hashKeys ++ [k] := by
  have hcons : [k].eraseDups = [k] := rfl
  by_cases hk : ∃ v ∈ ws, v.1.hashKey? = some k
  · simp [hashKeys, h, List.eraseDups_append, List.removeAll, hk]
  · simp [hashKeys, h, List.eraseDups_append, List.removeAll, hk, hcons]

lemma last?_concat :
    Writes.last? (ws ++ [w]) k = if w.1.hashKey? = some k then some w else ws.last? k := by
  simp only [last?, List.reverse_concat, List.find?_cons]
  by_cases h : w.1.hashKey? = some k
  · simp [h]
  · simp [h]

lemma hashKey?_of_last? (h : ws.last? k = some w) : w.1.hashKey? = some k := by
  simpa using List.find?_some h

lemma dict_concat (ws : Writes) (w : Value × Value) :
    Writes.dict (ws ++ [w]) = Dict.give ws.dict w := by
  simp [dict]

/-- **The keys of the dictionary** stand in the order in which they first came. -/
lemma keys_dict (ws : Writes) : ws.dict.keys = ws.hashKeys := by
  induction ws using List.reverseRecOn with
  | nil => rfl
  | append_singleton ws w ih =>
    rw [dict_concat, Dict.give]
    cases h : w.1.hashKey? with
    | none => simpa [hashKeys, h] using ih
    | some k => rw [OrderedMap.keys_insert, hashKeys_concat_of_some h, ih]

/-- **What the dictionary holds** under a hash key is the last pair that came under it. -/
lemma find?_dict (ws : Writes) (k : HashKey) : ws.dict.find? k = ws.last? k := by
  induction ws using List.reverseRecOn with
  | nil => rfl
  | append_singleton ws w ih =>
    rw [dict_concat, Dict.give, last?_concat, ← ih]
    cases h : w.1.hashKey? with
    | none => simp
    | some j => simp [OrderedMap.find?_insert]

lemma values_dict (ws : Writes) : ws.dict.values = ws.listing := by
  rw [OrderedMap.values_eq_filterMap_find?, keys_dict, listing]
  exact List.filterMap_congr fun k _ => find?_dict ws k

lemma filed_dict (ws : Writes) : ∀ e ∈ ws.dict.entries, e.2.1.hashKey? = some e.1 := by
  intro e he
  have hfound : ws.dict.find? e.1 = some e.2 := OrderedMap.find?_eq_some_iff.mpr he
  rw [find?_dict] at hfound
  exact hashKey?_of_last? hfound

lemma size_dict (ws : Writes) :
    ws.dict.size = (ws.filterMap (·.1.hashKey?)).toFinset.card := by
  have hnodup : ws.hashKeys.Nodup := keys_dict ws ▸ ws.dict.nodup
  rw [OrderedMap.size_eq_length_keys, keys_dict, ← List.toFinset_card_of_nodup hnodup]
  congr 1
  ext k
  simp [hashKeys]

end Writes

/-! ### What a dictionary has been given -/

namespace Store

/-- **What a dictionary has been given**, the refused pairs included. It is empty at first, and is
given a pair by an assignment to one of its items. What is done elsewhere does not matter. -/
inductive Given (r : Ref .dict) : Store → Writes → Prop
  | nothing {s : Store} : s.dict r = .empty → Given r s []
  | assign {s : Store} {ws : Writes} (key value : Value) : Given r s ws →
    Given r ((StoreM.setItem (.dict r) key value).after s) (ws ++ [(key, value)])
  | elsewhere {s s' : Store} {ws : Writes} : Given r s ws → s'.dict r = s.dict r → Given r s' ws

lemma dict_setDict {s : Store} {r q : Ref .dict} (d : Dict) :
    (s.setDict r d).dict q = if r = q then d else s.dict q := by
  simp only [dict, setDict, Arena.get_set, Ref.index_inj]

end Store

namespace StoreM

variable {s : Store} {r : Ref .dict} {key : Value} {k : HashKey}

lemma setItem_of_hashKey? (h : key.hashKey? = some k) (value : Value) :
    setItem (.dict r) key value s = .ok () (s.setDict r ((s.dict r).insert k (key, value))) := by
  show setDictItem r key value s = _
  unfold setDictItem
  rw [h]

lemma setItem_of_unhashable (h : key.hashKey? = none) (value : Value) :
    setItem (.dict r) key value s = .error (.unhashable (s.label key)) s := by
  show setDictItem r key value s = _
  unfold setDictItem
  rw [h]

lemma dict_after_setItem (key value : Value) :
    ((setItem (.dict r) key value).after s).dict r = Dict.give (s.dict r) (key, value) := by
  cases h : key.hashKey? with
  | none => rw [EStateM.after_of_error (setItem_of_unhashable h value), Dict.give, h]
  | some k =>
    rw [EStateM.after_of_ok (setItem_of_hashKey? h value), Store.dict_setDict, if_pos rfl,
      Dict.give, h]

end StoreM

namespace Store

variable {s s' : Store} {r : Ref .dict} {ws : Writes}

lemma Given.dict_eq (h : s.Given r ws) : s.dict r = ws.dict := by
  induction h with
  | nothing hempty => exact hempty
  | assign key value _ ih => rw [StoreM.dict_after_setItem, ih, Writes.dict_concat]
  | elsewhere _ hsame ih => rw [hsame, ih]

lemma given_of_dict_eq (h : s.dict r = ws.dict) : s.Given r ws := by
  induction ws using List.reverseRecOn generalizing s with
  | nil => exact .nothing h
  | append_singleton ws w ih =>
    have hbefore : (s.setDict r (Writes.dict ws)).dict r = Writes.dict ws := by
      rw [dict_setDict, if_pos rfl]
    refine (Given.assign w.1 w.2 (ih hbefore)).elsewhere ?_
    rw [StoreM.dict_after_setItem, hbefore, h, Writes.dict_concat]

end Store

/-- How a key that has no hash key is refused: by its type, or by the host if it is a string that
has no UTF-8 form. -/
def Store.refusal (s : Store) (key : Value) : Exit :=
  match key.encode with
  | .ok _ => .fault (.unhashable (s.label key))
  | .error c => .crash c

namespace Evaluator

/-- The pairs of a literal are evaluated one after the other, each key before its value, and every
key has a hash key. -/
inductive Pairs (parts : Evaluator) (scope : Ref .scope) :
    List (Expr × Expr) → Machine → Writes → Machine → Prop
  | nil (m : Machine) : Pairs parts scope [] m [] m
  | cons {k v : Expr} {rest : List (Expr × Expr)} {key value : Value} {ws : Writes}
      {m m₁ m₂ m₃ : Machine} :
    parts.expr scope k m = .ok key m₁ → key.hashKey? ≠ none → parts.expr scope v m₁ = .ok value m₂ →
      Pairs parts scope rest m₂ ws m₃ →
      Pairs parts scope ((k, v) :: rest) m ((key, value) :: ws) m₃

variable {parts : Evaluator} {scope : Ref .scope} {pairs : List (Expr × Expr)} {ws : Writes}
  {m m₁ : Machine}

/-- The pairs of a literal are taken in as they are evaluated. -/
lemma Pairs.entries_append (h : parts.Pairs scope pairs m ws m₁) (acc : Dict)
    (rest : List (Expr × Expr)) : parts.entries scope acc (pairs ++ rest) m =
      parts.entries scope (ws.foldl Dict.give acc) rest m₁ := by
  induction h generalizing acc with
  | nil m => rfl
  | @cons k v _ key value _ _ _ _ _ hkey hhash hvalue _ ih =>
    obtain ⟨hash, hhash⟩ := Option.ne_none_iff_exists'.mp hhash
    refine (EStateM.bind_of_ok hkey).trans ?_
    -- the key is looked at before its value is evaluated
    rw [Value.encode_of_hashKey? hhash, Eval.orCrash_ok_bind, hhash]
    refine (EStateM.bind_of_ok hvalue).trans ((ih _).trans ?_)
    rw [List.foldl_cons, Dict.give, hhash]

/-- A literal makes a new dictionary, which is given the pairs. -/
lemma Pairs.evalExpr (h : parts.Pairs scope pairs m ws m₁) (load : Loader) :
    ∃ r m', parts.evalExpr load scope (.dict pairs) m = .ok (.dict r) m' ∧
      ¬ r.Live m₁.world.store.census ∧ r.Live m'.world.store.census ∧
      m'.world.store.Given r ws := by
  have hentries := h.entries_append .empty []
  rw [List.append_nil] at hentries
  let s := m₁.world.store
  let s' := s.add (k := .dict) ws.dict
  refine ⟨s.next .dict, { m₁ with world := { m₁.world with store := s' } }, ?_, Nat.lt_irrefl _,
    s.live_next (k := .dict) _, Store.given_of_dict_eq (Arena.get_push_size _ _)⟩
  exact (EStateM.bind_of_ok hentries).trans (EStateM.bind_of_ok (Eval.onStore_of_ok rfl))

end Evaluator

/-! ### What is seen -/

/-- Only strings have the hash keys of strings. -/
lemma Value.exists_str_of_hashKey? {key : Value} {digest : UInt64}
    (h : key.hashKey? = some ⟨"str", digest⟩) : ∃ t, key = .str t := by
  unfold hashKey? at h
  split at h
  · simp at h
  · simp at h
  · simp at h
  · exact ⟨_, rfl⟩
  · simp at h

namespace Store

/-- **What is seen of a dictionary is what it has been given.** -/
structure Reflects (s : Store) (r : Ref .dict) (ws : Writes) : Prop where
  /-- What is stored sits under the hash key of its own key. -/
  filed : ∀ e ∈ (s.dict r).entries, e.2.1.hashKey? = some e.1
  /-- No two stored keys have one hash key. -/
  apart : ((s.dict r).values.map (·.1.hashKey?)).Nodup
  /-- An item is what was given last under the hash key. -/
  item (key : Value) (k : HashKey) : key.hashKey? = some k → s.item (.dict r) key =
    (ws.last? k).elim (.error (.missingKey (s.render key).plain)) fun w => .ok w.2
  /-- Every key that has a hash key is accepted. -/
  accepted (key value : Value) : key.hashKey? ≠ none →
    ∃ s', StoreM.setItem (.dict r) key value s = .ok () s'
  /-- A key is unhashable exactly if it has no hash key. -/
  unhashable (key : Value) :
    (∃ f, s.item (.dict r) key = .error f ∧ f.kind = .unhashable) ↔ key.hashKey? = none
  /-- Such a key is refused by its type, and nothing changes. A string that has no UTF-8 form does
  not get this far in an evaluation: the host fails over it before. -/
  refused (key value : Value) : key.hashKey? = none →
    s.item (.dict r) key = .error (.unhashable (s.label key)) ∧
      StoreM.setItem (.dict r) key value s = .error (.unhashable (s.label key)) s
  /-- A walk brings what there is to list, in order. -/
  walk : s.iteration? (.dict r) = some (.fixed ws.listing)
  /-- The text shows it in the same order, at whatever depth it is printed, except inside of
  itself. -/
  text (depth : Nat) (active : List Value) : .dict r ∉ active →
    s.renderWithin (depth + 1) active (.dict r) =
      Text.ofString "\x7b" ++ List.intercalate (Text.ofString ", ") (ws.listing.map fun w =>
        s.renderWithin depth (.dict r :: active) w.1 ++ Text.ofString ": " ++
          s.renderWithin depth (.dict r :: active) w.2) ++ Text.ofString "\x7d"
  /-- The length is the number of the hash keys that were given. -/
  length : Builtin.len.answer s [.dict r] =
    .ok (.int (.ofNat (ws.filterMap (·.1.hashKey?)).toFinset.card))
  /-- An attribute is the item of its name. -/
  attr (x : String) :
    StoreM.attribute? (.dict r) x s = .ok (s.item (.dict r) (.str x)).toOption s
  /-- There is none exactly if the name is missing as a key. -/
  missing (x : String) : StoreM.attribute? (.dict r) x s = .ok none s ↔
    s.item (.dict r) (.str x) = .error (.missingKey x)

variable {s : Store} {r : Ref .dict} {ws : Writes} {key : Value} {k : HashKey}

lemma item_of_unhashable (h : key.hashKey? = none) :
    s.item (.dict r) key = .error (.unhashable (s.label key)) := by
  show s.dictItem r key = _
  unfold dictItem
  rw [h]

lemma Given.item_of_hashKey? (h : s.Given r ws) (hk : key.hashKey? = some k) :
    s.item (.dict r) key =
      (ws.last? k).elim (.error (.missingKey (s.render key).plain)) fun w => .ok w.2 := by
  show s.dictItem r key = _
  unfold dictItem
  rw [hk, h.dict_eq]
  dsimp only
  rw [Writes.find?_dict]
  cases ws.last? k with
  | none => rfl
  | some w => rfl

lemma Given.attribute? (h : s.Given r ws) (x : String) :
    StoreM.attribute? (.dict r) x s = .ok (s.item (.dict r) (.str x)).toOption s := by
  show EStateM.Result.ok (s.dictAttribute? r x) s = _
  rw [h.item_of_hashKey? (Value.hashKey?_ofString x), dictAttribute?, h.dict_eq, Writes.find?_dict]
  cases hlast : ws.last? ⟨"str", Digest.ofText x⟩ with
  | none => rfl
  | some w =>
    obtain ⟨t, ht⟩ := Value.exists_str_of_hashKey? (Writes.hashKey?_of_last? hlast)
    obtain ⟨key, value⟩ := w
    obtain rfl : key = .str t := ht
    rfl

/-- **A dictionary reflects what it has been given.** -/
lemma Given.reflects (h : s.Given r ws) : s.Reflects r ws where
  filed := by
    rw [h.dict_eq]
    exact ws.filed_dict
  apart := by
    have hkeys : (s.dict r).values.map (·.1.hashKey?) = (s.dict r).keys.map some := by
      simp only [OrderedMap.values, OrderedMap.keys, List.map_map]
      refine List.map_congr_left fun e he => ?_
      rw [h.dict_eq] at he
      exact ws.filed_dict e he
    rw [hkeys]
    exact (s.dict r).nodup.map (Option.some_injective _)
  item key k hk := h.item_of_hashKey? hk
  accepted key value hk := by
    obtain ⟨k, hk⟩ := Option.ne_none_iff_exists'.mp hk
    exact ⟨_, StoreM.setItem_of_hashKey? hk value⟩
  unhashable key := by
    constructor
    · rintro ⟨f, hitem, hkind⟩
      by_contra hk
      obtain ⟨k, hk⟩ := Option.ne_none_iff_exists'.mp hk
      rw [h.item_of_hashKey? hk] at hitem
      cases hlast : ws.last? k with
      | none =>
        simp only [hlast, Option.elim, Except.error.injEq] at hitem
        simp [← hitem, Fault.missingKey] at hkind
      | some w => simp [hlast] at hitem
    · intro hk
      exact ⟨_, item_of_unhashable hk, rfl⟩
  refused key value hk := ⟨item_of_unhashable hk, StoreM.setItem_of_unhashable hk value⟩
  walk := by
    show some (Iteration.fixed (s.dict r).values) = _
    rw [h.dict_eq, ws.values_dict]
  text depth active hactive := by
    have hnot : active.contains (.dict r) = false := by simpa using hactive
    rw [renderWithin_dict, hnot, h.dict_eq, ws.values_dict]
    simp [dictText, Function.comp_def]
  length := by
    show Except.ok (Value.int (Int64.ofNat (s.dict r).size)) = _
    rw [h.dict_eq, ws.size_dict]
  attr x := h.attribute? x
  missing x := by
    have hprint : (s.render (.str x)).plain = x := Text.plain_ofString x
    rw [h.attribute? x, h.item_of_hashKey? (Value.hashKey?_ofString x), hprint]
    cases ws.last? ⟨"str", Digest.ofText x⟩ with
    | none => simp [Except.toOption]
    | some w => simp [Except.toOption]

end Store

end Wei
