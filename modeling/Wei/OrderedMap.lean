/-!
Finite maps that remember the order in which their keys came in. Writing a key that is there
keeps its place, a new key goes last. Scopes, class tables, instances and dictionaries all keep
their entries in this order, because a script can see it.
-/

namespace Wei

/-- Entries in the order in which their keys were first written. No key has two of them. -/
structure OrderedMap (κ ν : Type) where
  entries : List (κ × ν)
  nodup : (entries.map (·.1)).Nodup
  deriving DecidableEq

namespace OrderedMap

variable {κ ν μ : Type}

/-- No entry. -/
def empty : OrderedMap κ ν := ⟨[], List.nodup_nil⟩

instance : Inhabited (OrderedMap κ ν) := ⟨empty⟩

/-- A map is its entries. -/
theorem ext_entries {m m' : OrderedMap κ ν} (h : m.entries = m'.entries) : m = m' := by
  cases m
  cases m'
  congr

/-- The keys in order. -/
def keys (m : OrderedMap κ ν) : List κ := m.entries.map (·.1)

/-- The values in the order of their keys. -/
def values (m : OrderedMap κ ν) : List ν := m.entries.map (·.2)

/-- How many entries there are. -/
def size (m : OrderedMap κ ν) : Nat := m.entries.length

/-- The entries of which something holds. -/
def filter (m : OrderedMap κ ν) (p : κ × ν → Bool) : OrderedMap κ ν :=
  ⟨m.entries.filter p, m.nodup.sublist ((List.filter_sublist).map _)⟩

variable [DecidableEq κ]

/-- The value of a key in a list of entries: that of the first entry with the key. -/
def lookup (k : κ) : List (κ × ν) → Option ν
  | [] => none
  | e :: rest => if e.1 = k then some e.2 else lookup k rest

/-- The value of a key, if it has one. -/
def find? (m : OrderedMap κ ν) (k : κ) : Option ν := lookup k m.entries

/-- Is there an entry with this key? -/
def contains (m : OrderedMap κ ν) (k : κ) : Bool := (m.find? k).isSome

/-- Writes a key in a list of entries: in its place if it has one, else at the end. -/
def write (k : κ) (v : ν) : List (κ × ν) → List (κ × ν)
  | [] => [(k, v)]
  | e :: rest => if e.1 = k then (k, v) :: rest else e :: write k v rest

theorem map_fst_write (k : κ) (v : ν) (es : List (κ × ν)) :
    (write k v es).map (·.1) =
      if k ∈ es.map (·.1) then es.map (·.1) else es.map (·.1) ++ [k] := by
  induction es with
  | nil => simp [write]
  | cons e rest ih =>
    by_cases h : e.1 = k
    · simp [write, h]
    · have h' : ¬ k = e.1 := fun q => h q.symm
      simp only [write, h, if_false, List.map_cons, ih, List.mem_cons, h', false_or]
      split <;> rfl

theorem nodup_map_fst_write (k : κ) (v : ν) {es : List (κ × ν)} (h : (es.map (·.1)).Nodup) :
    ((write k v es).map (·.1)).Nodup := by
  rw [map_fst_write]
  split
  · exact h
  · next hk =>
    refine List.nodup_append.mpr ⟨h, List.pairwise_singleton _ k, fun a ha b hb => ?_⟩
    rw [List.mem_singleton.mp hb]
    exact fun hak => hk (hak ▸ ha)

/-- Gives a key a value. A key that was there keeps its place. -/
def insert (m : OrderedMap κ ν) (k : κ) (v : ν) : OrderedMap κ ν :=
  ⟨write k v m.entries, nodup_map_fst_write k v m.nodup⟩

@[simp] theorem find?_empty (k : κ) : (empty : OrderedMap κ ν).find? k = none := rfl

theorem lookup_write (k j : κ) (v : ν) (es : List (κ × ν)) :
    lookup j (write k v es) = if k = j then some v else lookup j es := by
  induction es with
  | nil => simp [write, lookup]
  | cons e rest ih =>
    by_cases hk : e.1 = k
    · by_cases hj : k = j <;> simp [write, lookup, hk, hj]
    · rw [write, if_neg hk, lookup, lookup, ih]
      by_cases hj : e.1 = j
      · have : ¬ k = j := fun h => hk (hj.trans h.symm)
        simp [hj, this]
      · simp [hj]

/-- **Reading after writing.** -/
theorem find?_insert (m : OrderedMap κ ν) (k j : κ) (v : ν) :
    (m.insert k v).find? j = if k = j then some v else m.find? j :=
  lookup_write k j v m.entries

@[simp] theorem find?_insert_self (m : OrderedMap κ ν) (k : κ) (v : ν) :
    (m.insert k v).find? k = some v := by
  simp [find?_insert]

theorem lookup_isSome_iff (k : κ) (es : List (κ × ν)) :
    (lookup k es).isSome ↔ k ∈ es.map (·.1) := by
  induction es with
  | nil => simp [lookup]
  | cons e rest ih =>
    by_cases h : e.1 = k
    · simp [lookup, h]
    · have h' : ¬ k = e.1 := fun q => h q.symm
      simp only [lookup, h, if_false, ih, List.map_cons, List.mem_cons, h', false_or]

/-- The keys are those that have a value. -/
theorem contains_iff (m : OrderedMap κ ν) (k : κ) : m.contains k ↔ k ∈ m.keys :=
  lookup_isSome_iff k m.entries

/-- **Writing keeps the order**: an old key keeps its place and a new one goes last. -/
theorem keys_insert (m : OrderedMap κ ν) (k : κ) (v : ν) :
    (m.insert k v).keys = if k ∈ m.keys then m.keys else m.keys ++ [k] :=
  map_fst_write k v m.entries

theorem mem_entries_of_lookup {k : κ} {v : ν} {es : List (κ × ν)} (h : lookup k es = some v) :
    (k, v) ∈ es := by
  induction es with
  | nil => cases h
  | cons e rest ih =>
    rw [lookup] at h
    split at h
    · next hk =>
      obtain ⟨⟩ := h
      subst hk
      exact List.mem_cons_self
    · exact List.mem_cons_of_mem e (ih h)

/-- What is found stands among the entries. -/
theorem mem_entries_of_find? {m : OrderedMap κ ν} {k : κ} {v : ν} (h : m.find? k = some v) :
    (k, v) ∈ m.entries :=
  mem_entries_of_lookup h

theorem lookup_of_mem_entries {k : κ} {v : ν} {es : List (κ × ν)} (hes : (es.map (·.1)).Nodup)
    (h : (k, v) ∈ es) : lookup k es = some v := by
  induction es with
  | nil => cases h
  | cons e rest ih =>
    obtain ⟨hnew, hrest⟩ := List.nodup_cons.mp hes
    rcases List.mem_cons.mp h with rfl | h
    · exact if_pos rfl
    · have hk : e.1 ≠ k := by
        rintro rfl
        exact hnew (List.mem_map.mpr ⟨_, h, rfl⟩)
      rw [lookup, if_neg hk, ih hrest h]

/-- **Every entry is found**, since no key has two. -/
theorem find?_eq_some_iff {m : OrderedMap κ ν} {k : κ} {v : ν} :
    m.find? k = some v ↔ (k, v) ∈ m.entries :=
  ⟨mem_entries_of_find?, lookup_of_mem_entries m.nodup⟩

theorem mem_values_of_find? {m : OrderedMap κ ν} {k : κ} {v : ν} (h : m.find? k = some v) :
    v ∈ m.values :=
  List.mem_map_of_mem (mem_entries_of_find? h)

theorem mem_write {k : κ} {v : ν} {es : List (κ × ν)} {e : κ × ν} (h : e ∈ write k v es) :
    e = (k, v) ∨ e ∈ es := by
  induction es with
  | nil => exact .inl (List.mem_singleton.mp h)
  | cons d rest ih =>
    rw [write] at h
    split at h
    · exact (List.mem_cons.mp h).imp_right (List.mem_cons_of_mem d)
    · rcases List.mem_cons.mp h with rfl | h
      · exact .inr List.mem_cons_self
      · exact (ih h).imp_right (List.mem_cons_of_mem d)

/-- Writing brings in no other entry. -/
theorem mem_entries_insert {m : OrderedMap κ ν} {k : κ} {v : ν} {e : κ × ν}
    (h : e ∈ (m.insert k v).entries) : e = (k, v) ∨ e ∈ m.entries :=
  mem_write h

theorem write_of_lookup_eq_none {k : κ} {es : List (κ × ν)} (h : lookup k es = none) (v : ν) :
    write k v es = es ++ [(k, v)] := by
  induction es with
  | nil => rfl
  | cons e rest ih =>
    rw [lookup] at h
    split at h
    · cases h
    · next hk => rw [write, if_neg hk, ih h, List.cons_append]

/-- A new key goes last. -/
theorem entries_insert_of_not_contains {m : OrderedMap κ ν} {k : κ} (h : m.contains k = false)
    (v : ν) : (m.insert k v).entries = m.entries ++ [(k, v)] :=
  write_of_lookup_eq_none (Option.isSome_eq_false_iff.mp h |> Option.isNone_iff_eq_none.mp) v

theorem map_write_of_lookup {k : κ} {v w : ν} {es : List (κ × ν)} (h : lookup k es = some w)
    {g : κ × ν → μ} (hg : g (k, v) = g (k, w)) : (write k v es).map g = es.map g := by
  induction es with
  | nil => cases h
  | cons e rest ih =>
    rw [lookup] at h
    split at h
    · next hk =>
      obtain ⟨⟩ := h
      subst hk
      rw [write, if_pos rfl, List.map_cons, List.map_cons, hg]
    · next hk => rw [write, if_neg hk, List.map_cons, List.map_cons, ih h]

/-- Of what is written in the place of something like it, nothing is seen. -/
theorem map_entries_insert {m : OrderedMap κ ν} {k : κ} {v w : ν} (h : m.find? k = some w)
    {g : κ × ν → μ} (hg : g (k, v) = g (k, w)) : (m.insert k v).entries.map g = m.entries.map g :=
  map_write_of_lookup h hg

theorem mem_values_insert {m : OrderedMap κ ν} {k : κ} {v w : ν}
    (h : w ∈ (m.insert k v).values) : w = v ∨ w ∈ m.values := by
  obtain ⟨e, he, rfl⟩ := List.mem_map.mp h
  rcases mem_entries_insert he with rfl | he
  · exact .inl rfl
  · exact .inr (List.mem_map_of_mem he)

end OrderedMap

end Wei
