import Wei.Equality
import Wei.Proofs.Dictionary

/-!
Keys that a dictionary cannot tell apart. It files a key under its type and a digest of 64 bits, and
never looks at the key again. For null, booleans and integers the digest says everything. Texts are
more than there are digests, so some different texts are one key: they *collide*. This is the only
way in which unequal keys meet.
-/

namespace Wei

/-! ### Digests -/

namespace Digest

/-- What takes the multiplication with the prime back. -/
def inverse : UInt64 := 0xce965057aff6957b

lemma mul_prime_inj {d e : UInt64} : d * prime = e * prime ↔ d = e := by
  refine ⟨fun h => ?_, fun h => by rw [h]⟩
  have hone : prime * inverse = 1 := by decide
  calc d = d * prime * inverse := by rw [UInt64.mul_assoc, hone, UInt64.mul_one]
    _ = e * prime * inverse := by rw [h]
    _ = e := by rw [UInt64.mul_assoc, hone, UInt64.mul_one]

lemma step_left_inj {d e : UInt64} (b : UInt8) : step d b = step e b ↔ d = e := by
  rw [step, step, mul_prime_inj, UInt64.xor_left_inj]

lemma step_right_inj (d : UInt64) {b c : UInt8} : step d b = step d c ↔ b = c := by
  rw [step, step, mul_prime_inj, UInt64.xor_right_inj, UInt8.toUInt64_inj]

/-- The same bytes take different digests to different digests. -/
lemma foldl_step_inj {d e : UInt64} (bytes : List UInt8) :
    bytes.foldl step d = bytes.foldl step e ↔ d = e := by
  induction bytes generalizing d e with
  | nil => rfl
  | cons b rest ih => rw [List.foldl_cons, List.foldl_cons, ih, step_left_inj]

lemma ofBytes_append_inj {before before' : List UInt8} (rest : List UInt8) :
    ofBytes (before ++ rest) = ofBytes (before' ++ rest) ↔ ofBytes before = ofBytes before' := by
  simp only [ofBytes, List.foldl_append, foldl_step_inj]

/-- **One byte always shows**, wherever it stands. -/
lemma ofBytes_byte_inj (before rest : List UInt8) {b c : UInt8} :
    ofBytes (before ++ b :: rest) = ofBytes (before ++ c :: rest) ↔ b = c := by
  simp only [ofBytes, List.foldl_append, List.foldl_cons, foldl_step_inj, step_right_inj]

lemma toList_loop_eq (bytes : ByteArray) (i : Nat) (acc : List UInt8) :
    ByteArray.toList.loop bytes i acc = acc.reverse ++ bytes.data.toList.drop i := by
  fun_induction ByteArray.toList.loop bytes i acc with
  | case1 i acc h ih =>
    have hi : i < bytes.data.toList.length := h
    have hget : bytes.get! i = bytes.data.toList[i] := getElem!_pos bytes.data i h
    rw [ih, List.drop_eq_getElem_cons hi, hget]
    simp
  | case2 i acc h =>
    have hi : bytes.data.toList.length ≤ i := Nat.le_of_not_lt h
    simp [List.drop_eq_nil_of_le hi]

lemma toList_eq (bytes : ByteArray) : bytes.toList = bytes.data.toList :=
  toList_loop_eq bytes 0 []

lemma toUTF8_append (t u : String) :
    (t ++ u).toUTF8.toList = t.toUTF8.toList ++ u.toUTF8.toList := by
  simp [toList_eq]

lemma toUTF8_inj {t u : String} : t.toUTF8.toList = u.toUTF8.toList ↔ t = u := by
  simp [toList_eq, ByteArray.ext_iff, ← String.toByteArray_inj]

end Digest

/-! ### Keys -/

/-- Two different texts that have one digest. -/
inductive Value.Collides : Value → Value → Prop
  | texts {t u : String} : t ≠ u → Digest.ofText t = Digest.ofText u →
    Collides (.str t) (.str u)

/-- A dictionary takes the two for one key: they are equal, or they collide. -/
def Store.OneKey (s : Store) (j k : Value) : Prop := s.equal j k = true ∨ j.Collides k

namespace Value

variable {j k : Value} {t u x : String}

lemma collides_str_iff : (str t).Collides (str u) ↔ t ≠ u ∧ Digest.ofText t = Digest.ofText u := by
  constructor
  · generalize hj : str (Text.ofString t) = j, hk : str (Text.ofString u) = k
    rintro ⟨hne, hdigest⟩
    obtain rfl := Text.ofString_inj.mp (str.inj hj)
    obtain rfl := Text.ofString_inj.mp (str.inj hk)
    exact ⟨hne, hdigest⟩
  · rintro ⟨hne, hdigest⟩
    exact .texts hne hdigest

/-- **A common ending changes nothing.** -/
lemma collides_append_iff (t u x : String) :
    (str (t ++ x : String)).Collides (str (u ++ x : String)) ↔ (str t).Collides (str u) := by
  have hsame : t ++ x = u ++ x ↔ t = u := by
    rw [← Digest.toUTF8_inj, Digest.toUTF8_append, Digest.toUTF8_append, List.append_left_inj,
      Digest.toUTF8_inj]
  rw [collides_str_iff, collides_str_iff, Digest.ofText, Digest.ofText, Digest.toUTF8_append,
    Digest.toUTF8_append, Digest.ofBytes_append_inj, ne_eq, hsame]
  rfl

/-- **Texts that differ in one byte never collide.** -/
lemma not_collides_of_one_byte {before rest : List UInt8} {b c : UInt8}
    (ht : t.toUTF8.toList = before ++ b :: rest) (hu : u.toUTF8.toList = before ++ c :: rest) :
    ¬ (str t).Collides (str u) := by
  rw [collides_str_iff, Digest.ofText, Digest.ofText, ht, hu, Digest.ofBytes_byte_inj]
  rintro ⟨hne, rfl⟩
  exact hne (Digest.toUTF8_inj.mp (ht.trans hu.symm))

lemma toUInt64_inj {m n : Int64} : m.toUInt64 = n.toUInt64 ↔ m = n := by
  refine ⟨fun h => ?_, fun h => by rw [h]⟩
  cases m
  cases n
  exact congrArg _ h

/-- A text that has a hash key is one of characters. -/
lemma exists_ofString_of_hashKey? {t : Text} (h : (str t).hashKey? ≠ none) :
    ∃ x : String, t = x := by
  have hplain : t.isPlain = true := by
    by_contra ht
    exact h (if_neg ht)
  exact ⟨t.plain, (Text.ofString_plain hplain).symm⟩

/-- **The hash key says all about a value**, but of a text it says only the digest. -/
lemma hashKey?_eq_iff (hk : k.hashKey? ≠ none) :
    j.hashKey? = k.hashKey? ↔ j = k ∨ j.Collides k := by
  have distinct (h : ∀ t, k ≠ str t) : ¬ j.Collides k := by
    rintro ⟨-, -⟩
    exact h _ rfl
  cases k with
  | null =>
    rw [or_iff_left (distinct (by simp))]
    cases j <;> simp [hashKey?]
  | bool b =>
    rw [or_iff_left (distinct (by simp))]
    cases j <;> simp [hashKey?]
    grind
  | int n =>
    rw [or_iff_left (distinct (by simp))]
    cases j <;> simp [hashKey?, toUInt64_inj]
  | str t =>
    obtain ⟨t, rfl⟩ := exists_ofString_of_hashKey? hk
    rw [hashKey?_ofString]
    constructor
    · intro h
      obtain ⟨u, rfl⟩ := exists_str_of_hashKey? h
      obtain ⟨u, rfl⟩ := exists_ofString_of_hashKey? (t := u) (by simp [h])
      have hdigest : Digest.ofText u = Digest.ofText t := by simpa using h
      by_cases hsame : u = t
      · exact .inl (congrArg (fun x : String => str x) hsame)
      · exact .inr (.texts hsame hdigest)
    · rintro (rfl | h)
      · exact hashKey?_ofString t
      · generalize hk : str (Text.ofString t) = k at h
        obtain ⟨-, hdigest⟩ := h
        obtain rfl := Text.ofString_inj.mp (str.inj hk)
        rw [hashKey?_ofString, hdigest]
  | _ => exact absurd rfl hk

end Value

namespace Store

variable {s : Store} {j k : Value}

lemma facing?_of_hashable (hk : k.hashKey? ≠ none) : s.facing? j k = none := by
  unfold facing?
  split
  · simp [Value.hashKey?] at hk
  · simp [Value.hashKey?] at hk
  · rfl

/-- What is not a container is equal to itself only. -/
lemma equal_of_hashable (hk : k.hashKey? ≠ none) : s.equal j k = true ↔ j = k := by
  unfold equal meet
  by_cases h : j = k
  · simp [h, Except.isOk, Except.toBool]
  · simp [h, facing?_of_hashable hk, Except.isOk, Except.toBool]

lemma oneKey_iff (hk : k.hashKey? ≠ none) : s.OneKey j k ↔ j.hashKey? = k.hashKey? := by
  rw [OneKey, equal_of_hashable hk, Value.hashKey?_eq_iff hk]

namespace Given

variable {r : Ref .dict} {ws : Writes}

/-- What a dictionary has under a key it was given under one that it takes for the same. -/
lemma mem_keys_iff (h : s.Given r ws) {hash : HashKey} (hhash : k.hashKey? = some hash) :
    hash ∈ (s.dict r).keys ↔ ∃ e ∈ ws, s.OneKey e.1 k := by
  have hk : k.hashKey? ≠ none := by simp [hhash]
  simp [h.dict_eq, Writes.keys_dict, Writes.hashKeys, oneKey_iff hk, hhash]

/-- A key is missing if none that is taken for it was given. -/
lemma item_eq_missing_iff (h : s.Given r ws) (hk : k.hashKey? ≠ none) :
    s.item (.dict r) k = .error (.missingKey (s.render k).plain) ↔ ∀ e ∈ ws, ¬ s.OneKey e.1 k := by
  obtain ⟨hash, hhash⟩ := Option.ne_none_iff_exists'.mp hk
  have hlast : ws.last? hash = none ↔ ∀ e ∈ ws, ¬ s.OneKey e.1 k := by
    simp [Writes.last?, oneKey_iff hk, hhash]
  rw [h.item_of_hashKey? hhash, ← hlast]
  cases ws.last? hash with
  | none => simp
  | some w => simp

/-- **A dictionary grows by a key exactly if it has none that it takes for it.** -/
lemma size_of_setItem (h : s.Given r ws) {v : Value} {s' : Store} (hk : k.hashKey? ≠ none)
    (hset : StoreM.setItem (.dict r) k v s = .ok () s') :
    ((∃ e ∈ ws, s.OneKey e.1 k) → (s'.dict r).size = (s.dict r).size) ∧
      ((∀ e ∈ ws, ¬ s.OneKey e.1 k) → (s'.dict r).size = (s.dict r).size + 1) := by
  obtain ⟨hash, hhash⟩ := Option.ne_none_iff_exists'.mp hk
  have hdict : s'.dict r = (s.dict r).insert hash (k, v) := by
    rw [← EStateM.after_of_ok hset, StoreM.dict_after_setItem, Dict.give, hhash]
  rw [OrderedMap.size_eq_length_keys, OrderedMap.size_eq_length_keys, hdict, OrderedMap.keys_insert]
  constructor
  · intro hold
    rw [if_pos ((h.mem_keys_iff hhash).mpr hold)]
  · intro hnew
    have habsent : hash ∉ (s.dict r).keys := by simpa [h.mem_keys_iff hhash] using hnew
    rw [if_neg habsent, List.length_append, List.length_singleton]

/-- **Two keys, one after the other.** The first is lost if the second is taken for it. -/
lemma items_of_two (h : s.Given r ws) (v w : Value) (hj : j.hashKey? ≠ none)
    (hk : k.hashKey? ≠ none) :
    ∃ s₁ s₂, StoreM.setItem (.dict r) j v s = .ok () s₁ ∧
      StoreM.setItem (.dict r) k w s₁ = .ok () s₂ ∧ s₂.item (.dict r) k = .ok w ∧
      (¬ s.OneKey j k → s₂.item (.dict r) j = .ok v) ∧
      (s.OneKey j k → s₂.item (.dict r) j = .ok w) := by
  obtain ⟨hash₁, hhash₁⟩ := Option.ne_none_iff_exists'.mp hj
  obtain ⟨hash₂, hhash₂⟩ := Option.ne_none_iff_exists'.mp hk
  have hset₁ := StoreM.setItem_of_hashKey? (s := s) (r := r) hhash₁ v
  have h₁ := h.assign j v
  rw [EStateM.after_of_ok hset₁] at h₁
  -- of the store in between only what the dictionary has been given matters
  generalize s.setDict r ((s.dict r).insert hash₁ (j, v)) = s₁ at hset₁ h₁
  have hset₂ := StoreM.setItem_of_hashKey? (s := s₁) (r := r) hhash₂ w
  have h₂ := h₁.assign k w
  rw [EStateM.after_of_ok hset₂] at h₂
  refine ⟨s₁, _, hset₁, hset₂, ?_, ?_, ?_⟩
  · rw [h₂.item_of_hashKey? hhash₂, Writes.last?_concat, if_pos hhash₂]
    rfl
  · intro hapart
    rw [oneKey_iff hk, hhash₁] at hapart
    rw [h₂.item_of_hashKey? hhash₁, Writes.last?_concat, if_neg (Ne.symm hapart),
      Writes.last?_concat, if_pos hhash₁]
    rfl
  · intro hone
    rw [oneKey_iff hk, hhash₁] at hone
    rw [h₂.item_of_hashKey? hhash₁, Writes.last?_concat, if_pos hone.symm]
    rfl

end Given

end Store

/-- **A dictionary keeps unequal keys apart, unless they are texts that collide.**

* The hash keys of two values are the same exactly if the values are equal or collide.
* A key keeps its value when another one is written, unless that is taken for the same key; then it
  reads as the new value.
* A dictionary grows by every key that is new, which means that it was given none that is equal or
  collides.
* Such a key reads as missing, and as an attribute it is not there.
* Texts that differ in one byte do not collide, and a common ending makes no difference. -/
theorem Store.Given.unequal_keys_stay_apart_unless_they_collide {s : Store} {r : Ref .dict}
    {ws : Writes} (h : s.Given r ws) :
    (∀ j k : Value, j.hashKey? ≠ none → k.hashKey? ≠ none →
      (j.hashKey? = k.hashKey? ↔ s.OneKey j k) ∧
      ∀ v w, ∃ s₁ s₂, StoreM.setItem (.dict r) j v s = .ok () s₁ ∧
        StoreM.setItem (.dict r) k w s₁ = .ok () s₂ ∧ s₂.item (.dict r) k = .ok w ∧
        (¬ s.OneKey j k → s₂.item (.dict r) j = .ok v) ∧
        (s.OneKey j k → s₂.item (.dict r) j = .ok w)) ∧
    (∀ k : Value, k.hashKey? ≠ none →
      (∀ v s', StoreM.setItem (.dict r) k v s = .ok () s' →
        ((∃ e ∈ ws, s.OneKey e.1 k) → (s'.dict r).size = (s.dict r).size) ∧
        ((∀ e ∈ ws, ¬ s.OneKey e.1 k) → (s'.dict r).size = (s.dict r).size + 1)) ∧
      (s.item (.dict r) k = .error (.missingKey (s.render k).plain) ↔ ∀ e ∈ ws, ¬ s.OneKey e.1 k)) ∧
    (∀ x, StoreM.attribute? (.dict r) x s = .ok none s ↔ ∀ e ∈ ws, ¬ s.OneKey e.1 (.str x)) ∧
    (∀ (t u : String) before b c rest, t.toUTF8.toList = before ++ b :: rest →
      u.toUTF8.toList = before ++ c :: rest → ¬ (Value.str t).Collides (.str u)) ∧
    ∀ t u x : String, (Value.str (t ++ x : String)).Collides (.str (u ++ x : String)) ↔
      (Value.str t).Collides (.str u) := by
  refine ⟨fun j k hj hk => ⟨(oneKey_iff hk).symm, fun v w => h.items_of_two v w hj hk⟩,
    fun k hk => ⟨fun v s' hset => h.size_of_setItem hk hset, h.item_eq_missing_iff hk⟩,
    fun x => ?_, fun t u before b c rest ht hu => Value.not_collides_of_one_byte ht hu,
    Value.collides_append_iff⟩
  have hx : (Value.str x).hashKey? ≠ none := by simp
  have hprint : (s.render (.str x)).plain = x := Text.plain_ofString x
  have hmissing := h.item_eq_missing_iff hx
  rw [hprint] at hmissing
  exact (h.reflects.missing x).trans hmissing

/-- The number one and its numeral are two keys. -/
theorem Store.Given.numeral_beside_number :
    let s := Store.initial.add (k := .dict) .empty
    ∃ s₁ s₂, StoreM.setItem (.dict ⟨0⟩) (.int 1) .null s = .ok () s₁ ∧
      StoreM.setItem (.dict ⟨0⟩) (.str "1") (.bool true) s₁ = .ok () s₂ ∧
      s₂.item (.dict ⟨0⟩) (.int 1) = .ok .null ∧ s₂.item (.dict ⟨0⟩) (.str "1") = .ok (.bool true) ∧
      s.item (.dict ⟨0⟩) (.str "1") = .error (.missingKey "1") := by
  intro s
  obtain ⟨hkeys, hnew, -⟩ :=
    (Given.nothing (s := s) (r := ⟨0⟩) rfl).unequal_keys_stay_apart_unless_they_collide
  have hone : (Value.int 1).hashKey? ≠ none := by simp [Value.hashKey?]
  have hnumeral : (Value.str "1").hashKey? ≠ none := by simp [Value.hashKey?]
  have hapart : ¬ s.OneKey (.int 1) (.str "1") := by simp [oneKey_iff hnumeral, Value.hashKey?]
  obtain ⟨s₁, s₂, hset₁, hset₂, hread, hkept, -⟩ :=
    (hkeys (.int 1) (.str "1") hone hnumeral).2 .null (.bool true)
  exact ⟨s₁, s₂, hset₁, hset₂, hkept hapart, hread, (hnew (.str "1") hnumeral).2.mpr (by simp)⟩

/-- **Unequal keys that a dictionary takes for one.** Two texts of ten letters and digits have the
same digest. What is written under the one is lost when the other is written, and reads as what was
written there. -/
theorem Store.unequal_texts_are_one_key :
    let j : Value := .str "7mohtcOFVz"
    let k : Value := .str "c1E51sSEyx"
    let s := Store.initial.add (k := .dict) .empty
    s.equal j k = false ∧ j.hashKey? = k.hashKey? ∧
    ∃ s₁ s₂, StoreM.setItem (.dict ⟨0⟩) j (.int 1) s = .ok () s₁ ∧
      StoreM.setItem (.dict ⟨0⟩) k (.int 2) s₁ = .ok () s₂ ∧
      s₂.item (.dict ⟨0⟩) j = .ok (.int 2) ∧ (s₂.dict ⟨0⟩).size = 1 := by
  intro j k s
  have hj : j.hashKey? ≠ none := by simp [j, Value.hashKey?]
  have hk : k.hashKey? ≠ none := by simp [k, Value.hashKey?]
  have hunequal : s.equal j k = false := by
    rw [← Bool.not_eq_true, equal_of_hashable hk]
    simp [j, k, Text.ofString_inj]
  have hhash : j.hashKey? = k.hashKey? := by decide +kernel
  have hgiven : s.Given ⟨0⟩ [] := .nothing rfl
  obtain ⟨s₁, s₂, hset₁, hset₂, -, -, hlost⟩ := hgiven.items_of_two (.int 1) (.int 2) hj hk
  have hgiven₁ := hgiven.assign j (.int 1)
  rw [EStateM.after_of_ok hset₁] at hgiven₁
  have hsize₁ : (s₁.dict ⟨0⟩).size = 1 := (hgiven.size_of_setItem hj hset₁).2 (by simp)
  have hsize₂ : (s₂.dict ⟨0⟩).size = (s₁.dict ⟨0⟩).size :=
    (hgiven₁.size_of_setItem hk hset₂).1 ⟨_, List.mem_singleton_self _, (oneKey_iff hk).mpr hhash⟩
  exact ⟨hunequal, hhash, s₁, s₂, hset₁, hset₂, hlost ((oneKey_iff hk).mpr hhash),
    hsize₂.trans hsize₁⟩

end Wei
