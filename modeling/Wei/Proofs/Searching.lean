import Mathlib.Data.List.Range
import Wei.Proofs.Occurrence
import Wei.TextMethod

/-!
The searches through a window of a text agree. A *hit* is a position at which the needle stands in
the text, all of it inside of the window. Finding answers the first hit. A window starts with the
needle if its start is a hit, and ends with it if the needle is hit right before its end. Counting
counts the hits that are chosen from the left, each at the first hit that does not overlap the one
before.
-/

namespace Wei.Text

variable {needle cs : Text} {a b i j : Nat}

/-- The needle stands in the text at position `i`, inside of the window from `a` to `b`. -/
def Hit (needle cs : Text) (a b i : Nat) : Prop :=
  a ≤ i ∧ i + needle.length ≤ b ∧ needle <+: cs.drop i

lemma length_window (a : Nat) (hb : b ≤ cs.length) : (window cs a b).length = b - a := by
  rw [window, List.length_drop, List.length_take, min_eq_left hb]

/-- **Hits are the occurrences in the window.** -/
lemma hit_add_iff (hab : a ≤ b) (hb : b ≤ cs.length) :
    Hit needle cs a b (a + j) ↔ OccursAt needle (window cs a b) j := by
  have hdrop : (window cs a b).drop j = (cs.drop (a + j)).take (b - (a + j)) := by
    rw [window, List.drop_drop, List.drop_take]
  rw [Hit, OccursAt, length_window a hb, hdrop, List.prefix_take_iff]
  constructor
  · rintro ⟨-, hle, hpre⟩
    exact ⟨by omega, hpre, by omega⟩
  · rintro ⟨hj, hpre, hle⟩
    exact ⟨by omega, by omega, hpre⟩

lemma Hit.le (h : Hit needle cs a b i) : a ≤ b := by
  have := h.1
  have := h.2.1
  omega

lemma hit_iff (hab : a ≤ b) (hb : b ≤ cs.length) :
    Hit needle cs a b i ↔ ∃ j, i = a + j ∧ OccursAt needle (window cs a b) j := by
  constructor
  · intro h
    obtain ⟨j, rfl⟩ := Nat.exists_eq_add_of_le h.1
    exact ⟨j, rfl, (hit_add_iff hab hb).mp h⟩
  · rintro ⟨j, rfl, h⟩
    exact (hit_add_iff hab hb).mpr h

/-! ### Finding, and both ends -/

/-- **Finding answers the first hit.** -/
lemma findIn?_spec (hb : b ≤ cs.length) :
    (findIn? needle cs a b = none ∧ ∀ i, ¬ Hit needle cs a b i) ∨
      ∃ i, findIn? needle cs a b = some i ∧ Hit needle cs a b i ∧
        ∀ j, Hit needle cs a b j → i ≤ j := by
  unfold findIn?
  by_cases hab : a ≤ b
  · rw [if_pos hab]
    rcases find?_spec needle (window cs a b) with ⟨hnone, hnot⟩ | ⟨i, hsome, hi, hmin⟩
    · refine .inl ⟨by rw [hnone]; rfl, fun i hi => ?_⟩
      obtain ⟨j, -, hj⟩ := (hit_iff hab hb).mp hi
      exact hnot j hj
    · refine .inr ⟨a + i, by rw [hsome, Nat.add_comm]; rfl, (hit_add_iff hab hb).mpr hi, ?_⟩
      intro j hj
      obtain ⟨k, rfl, hk⟩ := (hit_iff hab hb).mp hj
      have hle : i ≤ k := Nat.le_of_not_lt fun hlt => hmin k hlt hk
      omega
  · rw [if_neg hab]
    exact .inl ⟨rfl, fun i hi => hab hi.le⟩

lemma startsWithIn_iff (hb : b ≤ cs.length) :
    startsWithIn needle cs a b = true ↔ Hit needle cs a b a := by
  unfold startsWithIn
  rw [Bool.and_eq_true, decide_eq_true_iff, startsWith_iff, ← occursAt_zero]
  constructor
  · rintro ⟨hab, h⟩
    exact (hit_add_iff hab hb).mpr h
  · intro h
    exact ⟨h.le, (hit_add_iff h.le hb).mp h⟩

/-- If the needle is longer than what stands before the end of the window, then this position is
the start of the text, where it does not fit. -/
lemma endsWithIn_iff (hb : b ≤ cs.length) :
    endsWithIn needle cs a b = true ↔ Hit needle cs a b (b - needle.length) := by
  unfold endsWithIn
  rw [Bool.and_eq_true, decide_eq_true_iff, endsWith_iff, suffix_iff_occursAt, length_window a hb]
  have hend (hfits : a + needle.length ≤ b) :
      b - needle.length = a + (b - a - needle.length) := by omega
  constructor
  · rintro ⟨hab, hfits, h⟩
    rw [hend (by omega)]
    exact (hit_add_iff hab hb).mpr h
  · intro h
    have hstart := h.1
    have hstop := h.2.1
    rw [hend (by omega)] at h
    exact ⟨h.le, by omega, (hit_add_iff h.le hb).mp h⟩

/-! ### Choosing hits -/

/-- The positions that are chosen from `start` on: the first hit, and from there on the first one
that does not overlap the one before. Hits of the empty needle do not overlap. -/
inductive Chosen (hit : Nat → Prop) (width : Nat) : Nat → List Nat → Prop
  | done {start : Nat} : (∀ i, start ≤ i → ¬ hit i) → Chosen hit width start []
  | next {start i : Nat} {rest : List Nat} : start ≤ i → hit i →
    (∀ j, start ≤ j → j < i → ¬ hit j) → Chosen hit width (i + max width 1) rest →
    Chosen hit width start (i :: rest)

variable {hit hit' : Nat → Prop} {width start : Nat} {chosen chosen' : List Nat}

lemma Chosen.unique (h : Chosen hit width start chosen) (h' : Chosen hit width start chosen') :
    chosen = chosen' := by
  induction h generalizing chosen' with
  | done hnot =>
    cases h' with
    | done => rfl
    | next hle hi => exact absurd hi (hnot _ hle)
  | @next start i rest hle hi hmin _ ih =>
    cases h' with
    | done hnot => exact absurd hi (hnot i hle)
    | @next _ j rest' hle' hj hmin' h' =>
      obtain rfl : i = j := by
        rcases Nat.lt_trichotomy i j with hlt | heq | hlt
        · exact absurd hi (hmin' i hle hlt)
        · exact heq
        · exact absurd hj (hmin j hle' hlt)
      rw [ih h']

/-- Where hits are moved, so are the chosen ones. -/
lemma Chosen.shift (k : Nat) (hhit : ∀ j, hit (k + j) ↔ hit' j)
    (h : Chosen hit' width start chosen) :
    Chosen hit width (k + start) (chosen.map (k + ·)) := by
  have hback {start i : Nat} (hle : k + start ≤ i) : ∃ j, i = k + j ∧ start ≤ j :=
    ⟨i - k, by omega, by omega⟩
  induction h with
  | done hnot =>
    refine .done fun i hle hi => ?_
    obtain ⟨j, rfl, hj⟩ := hback hle
    exact hnot j hj ((hhit j).mp hi)
  | @next start i rest hle hi hmin _ ih =>
    refine .next (Nat.add_le_add_left hle k) ((hhit i).mpr hi) (fun j' hle' hlt hat => ?_) ?_
    · obtain ⟨j, rfl, hj⟩ := hback hle'
      exact hmin j hj (Nat.lt_of_add_lt_add_left hlt) ((hhit j).mp hat)
    · rwa [Nat.add_assoc]

/-! ### Counting -/

/-- **Counting counts the chosen occurrences** of a needle that is not empty. -/
lemma exists_chosen_of_ne_nil (hneedle : needle ≠ []) (cs : Text) :
    ∃ chosen, Chosen (OccursAt needle cs) needle.length 0 chosen ∧
      countFrom needle 0 cs = chosen.length := by
  induction cs using cut_induction hneedle with
  | none cs h =>
    refine ⟨[], .done fun i _ hi => h (exists_occursAt_iff.mp ⟨i, hi⟩), ?_⟩
    rw [countFrom_of_absent h, List.length_nil]
  | cut before after h ih =>
    obtain ⟨chosen, hchosen, hcount⟩ := ih
    have hat : OccursAt needle (before ++ needle ++ after) before.length := by
      refine ⟨by simp, ?_⟩
      simp
    have hpos : 0 < needle.length := List.length_pos_of_ne_nil hneedle
    refine ⟨before.length :: chosen.map ((before ++ needle).length + ·),
      .next (Nat.zero_le _) hat (fun j _ hj => h j hj) ?_, ?_⟩
    · have hmoved := hchosen.shift (before ++ needle).length fun j => occursAt_append
      rw [max_eq_left hpos, ← List.length_append]
      exact hmoved
    · rw [countFrom_of_first hneedle h, hcount]
      simp

/-- Hits that do not overlap are all chosen. -/
lemma chosen_of_all {n m : Nat} (hn : start + m = n + 1) :
    Chosen (· ≤ n) 0 start (List.range' start m) := by
  induction m generalizing start with
  | zero => exact .done fun i hle => by omega
  | succ m ih =>
    rw [List.range'_succ]
    exact .next (Nat.le_refl start) (by omega) (fun j hle hlt => by omega) (ih (by omega))

/-- **Counting counts the chosen occurrences.** -/
lemma exists_chosen (needle cs : Text) :
    ∃ chosen, Chosen (OccursAt needle cs) needle.length 0 chosen ∧
      count needle cs = chosen.length := by
  by_cases hneedle : needle = []
  · subst hneedle
    have hoccurs : OccursAt [] cs = (· ≤ cs.length) := by
      funext i
      simp [OccursAt]
    refine ⟨List.range' 0 (cs.length + 1), ?_, by simp [count]⟩
    rw [hoccurs]
    exact chosen_of_all (Nat.zero_add _)
  · have hempty : needle.isEmpty = false := by simpa using hneedle
    have hcount : count needle cs = countFrom needle 0 cs := by
      rw [count, hempty]
      rfl
    rw [hcount]
    exact exists_chosen_of_ne_nil hneedle cs

/-- **Counting in a window counts the chosen hits.** -/
lemma exists_chosen_hits (hb : b ≤ cs.length) :
    ∃ chosen, Chosen (Hit needle cs a b) needle.length a chosen ∧
      countIn needle cs a b = chosen.length := by
  unfold countIn
  by_cases hab : a ≤ b
  · obtain ⟨chosen, hchosen, hcount⟩ := exists_chosen needle (window cs a b)
    refine ⟨chosen.map (a + ·), hchosen.shift a fun j => hit_add_iff hab hb, ?_⟩
    rw [if_pos hab, hcount, List.length_map]
  · refine ⟨[], .done fun i _ hi => hab hi.le, ?_⟩
    rw [if_neg hab, List.length_nil]

lemma countIn_nil (hb : b ≤ cs.length) :
    countIn [] cs a b = if a ≤ b then b - a + 1 else 0 := by
  unfold countIn
  rw [count, List.isEmpty_nil, if_pos rfl, length_window a hb]

lemma countIn_le (needle cs : Text) (a b : Nat) :
    countIn needle cs a b ≤ cs.length + 1 := by
  have hwindow : (window cs a b).length ≤ cs.length := by
    rw [window, List.length_drop, List.length_take]
    omega
  have hcount := countFrom_le_length needle 0 (window cs a b)
  unfold countIn count
  split
  · split <;> omega
  · exact Nat.zero_le _

/-- Some hit is chosen exactly if there is one. -/
lemma Chosen.length_pos_iff (h : Chosen hit width start chosen) (hstart : ∀ i, hit i → start ≤ i) :
    0 < chosen.length ↔ ∃ i, hit i := by
  cases h with
  | done hnot => simpa using fun i hi => hnot i (hstart i hi) hi
  | next hle hi => exact iff_of_true (by simp) ⟨_, hi⟩

end Wei.Text

namespace Wei.TextMethod

open Text

/-! ### The methods -/

/-- What a search may be given beside the needle: nothing, a start, or both ends. -/
inductive Range where
  | whole
  | since (start : Int64)
  | between (start stop : Int64)

namespace Range

/-- The arguments of a search. -/
def args (needle : Text) : Range → List Value
  | whole => [.str needle]
  | since start => [.str needle, .int start]
  | between start stop => [.str needle, .int start, .int stop]

/-- Where the window starts in a text of length `n`. -/
def start (n : Nat) : Range → Int
  | whole => 0
  | since start => Position.clamp start.toInt n
  | between start _ => Position.clamp start.toInt n

/-- Where the window ends in a text of length `n`. -/
def stop (n : Nat) : Range → Int
  | whole => n
  | since _ => n
  | between _ stop => Position.clamp stop.toInt n

end Range

lemma Range.start_mem (range : Range) (n : Nat) : 0 ≤ range.start n ∧ range.start n ≤ n := by
  cases range with
  | whole => exact ⟨Int.le_refl 0, Int.natCast_nonneg n⟩
  | since => exact Position.clamp_mem ..
  | between => exact Position.clamp_mem ..

lemma Range.stop_mem (range : Range) (n : Nat) : 0 ≤ range.stop n ∧ range.stop n ≤ n := by
  cases range with
  | whole => exact ⟨Int.natCast_nonneg n, Int.le_refl _⟩
  | since => exact ⟨Int.natCast_nonneg n, Int.le_refl _⟩
  | between => exact Position.clamp_mem ..

lemma window_range (s : Store) (this needle : Text) (range : Range) :
    TextMethod.window s this (range.args needle) = .ok
      ⟨needle, (range.start this.length).toNat, (range.stop this.length).toNat⟩ := by
  cases range <;> rfl

/-- The position that a search answers, as a number. -/
def position : Option Nat → Int
  | some i => i
  | none => -1

lemma foundAt_eq (found : Option Nat) : foundAt found = .int (.ofInt (position found)) := by
  cases found <;> rfl

/-- What searching for a needle through the window from `a` to `b` of a text comes to: what is
found, whether the window starts and ends with the needle, and how often that is counted. -/
structure Findings (needle cs : Text) (a b : Nat) (found : Int) (starts ends : Bool)
    (n : Nat) : Prop where
  /-- What is found is the least hit, or one before the first position if there is none. -/
  find : (∃ i : Nat, found = i ∧ Hit needle cs a b i ∧ ∀ j, Hit needle cs a b j → i ≤ j) ∨
    found = -1 ∧ ∀ i, ¬ Hit needle cs a b i
  startswith : starts = true ↔ Hit needle cs a b a
  endswith : ends = true ↔ Hit needle cs a b (b - needle.length)
  /-- The hits that are counted are chosen from the left without overlap, which can be done in one
  way only. -/
  count : ∃ chosen, n = chosen.length ∧
    ∀ l, Chosen (Hit needle cs a b) needle.length a l ↔ l = chosen
  /-- The empty needle is counted at all positions of the window. -/
  count_empty : needle = [] → n = if a ≤ b then b - a + 1 else 0
  found_iff_counted : 0 ≤ found ↔ 0 < n
  starts_iff_found : starts = true ↔ found = a

lemma Findings.found_mem {needle cs : Text} {a b n : Nat} {found : Int} {starts ends : Bool}
    (h : Findings needle cs a b found starts ends n) : -1 ≤ found ∧ found ≤ b := by
  rcases h.find with ⟨i, rfl, hi, -⟩ | ⟨rfl, -⟩
  · have := hi.2.1
    omega
  · omega

lemma findings {needle cs : Text} {a b : Nat} (hb : b ≤ cs.length) :
    Findings needle cs a b (position (findIn? needle cs a b)) (startsWithIn needle cs a b)
      (endsWithIn needle cs a b) (countIn needle cs a b) := by
  obtain ⟨chosen, hchosen, hcount⟩ : ∃ chosen, Chosen (Hit needle cs a b) needle.length a chosen ∧
    countIn needle cs a b = chosen.length := exists_chosen_hits hb
  have hcounted := hchosen.length_pos_iff fun i hi => hi.1
  have hstarts : startsWithIn needle cs a b = true ↔ Hit needle cs a b a := startsWithIn_iff hb
  refine ⟨?_, hstarts, endsWithIn_iff hb, ⟨chosen, hcount, fun l => ⟨(·.unique hchosen), ?_⟩⟩, ?_,
    ?_, ?_⟩
  · rcases findIn?_spec hb with ⟨hnone, hnot⟩ | ⟨i, hsome, hi, hmin⟩
    · exact .inr ⟨congrArg position hnone, hnot⟩
    · exact .inl ⟨i, congrArg position hsome, hi, hmin⟩
  · rintro rfl
    exact hchosen
  · rintro rfl
    exact countIn_nil hb
  · rw [hcount, hcounted]
    rcases findIn?_spec hb with ⟨hnone, hnot⟩ | ⟨i, hsome, hi, -⟩
    · rw [hnone]
      exact iff_of_false (by decide) fun ⟨i, hi⟩ => hnot i hi
    · rw [hsome]
      exact iff_of_true (Int.natCast_nonneg i) ⟨i, hi⟩
  · rw [hstarts]
    rcases findIn?_spec hb with ⟨hnone, hnot⟩ | ⟨i, hsome, hi, hmin⟩
    · rw [hnone]
      refine iff_of_false (hnot a) fun heq => ?_
      have heq : (-1 : Int) = a := heq
      omega
    · rw [hsome]
      constructor
      · intro ha
        exact congrArg _ (Nat.le_antisymm (hmin a ha) hi.1)
      · intro heq
        obtain rfl : i = a := Int.ofNat_inj.mp heq
        exact hi

/-- **The searches agree** on what a hit is, in whatever window they look. Both ends of the window
are clamped to the text, and no search changes the store. Numbers are answered as they are, as long
as a text is not longer than integers can tell. -/
theorem searches_agree (s : Store) (this needle : Text) (range : Range) :
    ∃ (a b : Nat) (found : Int) (starts ends : Bool) (n : Nat),
      a = range.start this.length ∧ b = range.stop this.length ∧
      a ≤ this.length ∧ b ≤ this.length ∧
      call .find this (range.args needle) s = .ok (.int (.ofInt found)) s ∧
      call .startswith this (range.args needle) s = .ok (.bool starts) s ∧
      call .endswith this (range.args needle) s = .ok (.bool ends) s ∧
      call .count this (range.args needle) s = .ok (.int (.ofNat n)) s ∧
      Findings needle this a b found starts ends n ∧
      (this.length < Int64.maxValue.toInt →
        (Int64.ofInt found).toInt = found ∧ (Int64.ofNat n).toInt = n) := by
  obtain ⟨hstart, hstart'⟩ := range.start_mem this.length
  obtain ⟨hstop, hstop'⟩ := range.stop_mem this.length
  have hb : (range.stop this.length).toNat ≤ this.length := by omega
  have hwindow := window_range s this needle range
  have hfindings : Findings needle this (range.start this.length).toNat
    (range.stop this.length).toNat _ _ _ _ := findings hb
  have hcount := countIn_le needle this (range.start this.length).toNat
    (range.stop this.length).toNat
  have hmax : Int64.maxValue.toInt = 9223372036854775807 := rfl
  refine ⟨_, _, _, _, _, _, Int.toNat_of_nonneg hstart, Int.toNat_of_nonneg hstop, by omega,
    by omega, call_of_value ?_, call_of_value ?_, call_of_value ?_, call_of_value ?_, hfindings,
    fun hlength => ⟨?_, ?_⟩⟩
  · rw [answer, hwindow]
    exact congrArg (Except.ok ∘ Answer.value) (foundAt_eq _)
  · rw [answer, hwindow]
    rfl
  · rw [answer, hwindow]
    rfl
  · rw [answer, hwindow]
    rfl
  · obtain ⟨hleast, hgreatest⟩ := hfindings.found_mem
    exact Int64.toInt_ofInt_of_le (by omega) (by omega)
  · exact Int64.toInt_ofNat_of_lt (by omega)

end Wei.TextMethod
