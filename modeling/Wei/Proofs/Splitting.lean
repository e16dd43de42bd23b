import Wei.Proofs.Occurrence
import Wei.TextMethod

/-!
Splitting, joining and counting agree. A text is cut at the occurrences of a separator from the left
and without overlaps, and these are the occurrences that counting counts. Joining the pieces gives
the text back, and a limit leaves the text behind the last cut as it was, which is what joining the
pieces beyond the limit gives.
-/

namespace Wei.Text

variable {needle cs before after acc : Text} {pieces : List Text} {limit : Nat}

/-! ### One cut -/

lemma splitFrom_skip (acc : Text) (limit : Nat) (xs cs : Text) :
    splitFrom needle acc limit xs.length (xs ++ cs) = splitFrom needle acc limit 0 cs := by
  induction xs with
  | nil => rfl
  | cons x xs ih =>
    rw [List.cons_append, List.length_cons, splitFrom, ih]

lemma splitFrom_zero (acc cs : Text) : splitFrom needle acc 0 0 cs = [acc.reverse ++ cs] := by
  induction cs generalizing acc with
  | nil => simp [splitFrom]
  | cons c cs ih =>
    rw [splitFrom, ih]
    simp

lemma splitFrom_of_absent (h : ¬ needle <:+: cs) :
    splitFrom needle acc limit 0 cs = [acc.reverse ++ cs] := by
  cases limit with
  | zero => exact splitFrom_zero acc cs
  | succ limit =>
    induction cs generalizing acc with
    | nil => simp [splitFrom]
    | cons c cs ih =>
      have hnot : ¬ startsWith needle (c :: cs) = true := fun hstarts =>
        h (startsWith_iff.mp hstarts).isInfix
      rw [splitFrom, if_neg hnot, ih fun hin => h (hin.trans (List.suffix_cons c cs).isInfix)]
      simp

/-- **Splitting goes on behind the first occurrence.** -/
lemma splitFrom_of_first (hneedle : needle ≠ []) (h : FirstBetween needle before after) :
    splitFrom needle acc (limit + 1) 0 (before ++ needle ++ after) =
      (acc.reverse ++ before) :: splitFrom needle [] limit 0 after := by
  induction before generalizing acc with
  | nil =>
    obtain ⟨n, tail, rfl⟩ := List.exists_cons_of_ne_nil hneedle
    have hstarts : startsWith (n :: tail) (n :: (tail ++ after)) = true :=
      startsWith_iff.mpr ⟨after, rfl⟩
    show splitFrom (n :: tail) acc (limit + 1) 0 (n :: (tail ++ after)) = _
    rw [splitFrom, if_pos hstarts, List.append_nil]
    exact congrArg (acc.reverse :: ·) (splitFrom_skip [] limit tail after)
  | cons b before ih =>
    show splitFrom needle acc (limit + 1) 0 (b :: (before ++ needle ++ after)) = _
    rw [splitFrom, if_neg h.not_startsWith, ih h.tail]
    simp

/-! ### All cuts -/

/-- How often a text is cut under a limit, when the needle occurs `n` times. A negative limit is
none. -/
def cutCount (limit : Int) (n : Nat) : Nat := if limit < 0 then n else min limit.toNat n

lemma cutCount_le (limit : Int) (n : Nat) : cutCount limit n ≤ n := by
  unfold cutCount
  split <;> omega

/-- Pieces that have been joined may be joined with others. -/
lemma intercalate_rejoin (needle : Text) (xs : List Text) {ys : List Text}
    (hys : ys ≠ []) :
    needle.intercalate (xs ++ [needle.intercalate ys]) = needle.intercalate (xs ++ ys) := by
  induction xs with
  | nil => exact List.intercalate_singleton
  | cons x xs ih =>
    rw [List.cons_append, List.cons_append, List.intercalate_cons_of_ne_nil (by simp), ih,
      List.intercalate_cons_of_ne_nil (by simp [hys])]

/-- The pieces of a text between the occurrences of the needle, from the left and without
overlaps. -/
inductive Cuts (needle : Text) : Text → List Text → Prop
  | last {cs : Text} : ¬ needle <:+: cs → Cuts needle cs [cs]
  | cut {before after : Text} {pieces : List Text} :
    FirstBetween needle before after → Cuts needle after pieces →
    Cuts needle (before ++ needle ++ after) (before :: pieces)

lemma exists_cuts (hneedle : needle ≠ []) (cs : Text) : ∃ pieces, Cuts needle cs pieces := by
  induction cs using cut_induction hneedle with
  | none cs h => exact ⟨[cs], .last h⟩
  | cut before after h ih =>
    obtain ⟨pieces, hpieces⟩ := ih
    exact ⟨before :: pieces, .cut h hpieces⟩

namespace Cuts

lemma ne_nil (h : Cuts needle cs pieces) : pieces ≠ [] := by
  cases h <;> simp

/-- **Joining the pieces gives the text back.** -/
lemma intercalate_eq (h : Cuts needle cs pieces) : needle.intercalate pieces = cs := by
  induction h with
  | last => exact List.intercalate_singleton
  | cut _ h ih => rw [List.intercalate_cons_of_ne_nil h.ne_nil, ih]

lemma absent (h : Cuts needle cs pieces) (hneedle : needle ≠ []) :
    ∀ piece ∈ pieces, ¬ needle <:+: piece := by
  induction h with
  | last h => simpa using h
  | cut hfirst _ ih => exact List.forall_mem_cons.mpr ⟨hfirst.absent hneedle, ih⟩

/-- **There is one piece more than there are occurrences.** -/
lemma length_eq (h : Cuts needle cs pieces) (hneedle : needle ≠ []) :
    pieces.length = countFrom needle 0 cs + 1 := by
  induction h with
  | last h => rw [countFrom_of_absent h, List.length_singleton]
  | cut hfirst _ ih => rw [List.length_cons, ih, countFrom_of_first hneedle hfirst]

lemma length_cut (h : Cuts needle cs pieces) (hneedle : needle ≠ []) {k : Nat}
    (hk : k ≤ countFrom needle 0 cs) :
    (pieces.take k ++ [needle.intercalate (pieces.drop k)]).length = k + 1 := by
  have hlength := h.length_eq hneedle
  rw [List.length_append, List.length_take, List.length_singleton]
  omega

lemma intercalate_cut (h : Cuts needle cs pieces) (hneedle : needle ≠ []) {k : Nat}
    (hk : k ≤ countFrom needle 0 cs) :
    needle.intercalate (pieces.take k ++ [needle.intercalate (pieces.drop k)]) = cs := by
  have hlength := h.length_eq hneedle
  have hdrop : pieces.drop k ≠ [] := by
    rw [Ne, List.drop_eq_nil_iff]
    omega
  rw [intercalate_rejoin _ _ hdrop, List.take_append_drop, h.intercalate_eq]

/-- **A limit joins the pieces beyond it.** -/
lemma splitFrom_eq (h : Cuts needle cs pieces) (hneedle : needle ≠ []) (limit : Nat) :
    splitFrom needle [] limit 0 cs =
      pieces.take (min limit (countFrom needle 0 cs)) ++
        [needle.intercalate (pieces.drop (min limit (countFrom needle 0 cs)))] := by
  induction h generalizing limit with
  | last h =>
    rw [splitFrom_of_absent h, countFrom_of_absent h, Nat.min_zero]
    simp
  | @cut before after pieces hfirst h ih =>
    cases limit with
    | zero =>
      rw [splitFrom_zero, Nat.zero_min, List.drop_zero, (Cuts.cut hfirst h).intercalate_eq]
      rfl
    | succ limit =>
      rw [splitFrom_of_first hneedle hfirst, countFrom_of_first hneedle hfirst,
        Nat.add_min_add_right, ih]
      rfl

/-- After all cuts there is nothing to be joined. -/
lemma take_append_eq (h : Cuts needle cs pieces) (hneedle : needle ≠ []) :
    pieces.take (countFrom needle 0 cs) ++
      [needle.intercalate (pieces.drop (countFrom needle 0 cs))] = pieces := by
  have hlast : pieces.drop (countFrom needle 0 cs) = [pieces.getLast h.ne_nil] := by
    have hcount : countFrom needle 0 cs = pieces.length - 1 := by
      rw [h.length_eq hneedle, Nat.add_sub_cancel]
    rw [hcount, List.drop_length_sub_one h.ne_nil]
  rw [hlast, List.intercalate_singleton, ← hlast, List.take_append_drop]

/-- **Splitting cuts as often as the limit allows**, and everywhere without one. -/
lemma split_eq (h : Cuts needle cs pieces) (hneedle : needle ≠ []) (limit : Int) :
    split needle cs limit =
      pieces.take (cutCount limit (countFrom needle 0 cs)) ++
        [needle.intercalate (pieces.drop (cutCount limit (countFrom needle 0 cs)))] := by
  rw [split, h.splitFrom_eq hneedle, cutCount]
  split
  · rw [Nat.min_eq_right (countFrom_le_length needle 0 cs)]
  · rfl

end Cuts

end Wei.Text

namespace Wei.TextMethod

open Text

variable {s : Store} {this sep : Text}

lemma isEmpty_eq_false (hsep : sep ≠ []) : sep.isEmpty = false := by
  simpa using hsep

/-! ### The methods -/

/-- The arguments of splitting: a separator, and maybe a limit. -/
def splitArgs (separator : Text) (limit : Option Int64) : List Value :=
  .str separator :: (limit.map .int).toList

/-- The store with one more list, of strings. -/
def withStrings (s : Store) (strings : List Text) : Store :=
  { s with lists := s.lists.push (strings.map .str) }

lemma list_withStrings (s : Store) (strings : List Text) :
    (withStrings s strings).list ⟨s.lists.size⟩ = strings.map .str := Arena.get_push_size _ _

lemma withStrings_injective (s : Store) : Function.Injective (withStrings s) := by
  intro strings strings' h
  have hlist := congrArg (Store.list · ⟨s.lists.size⟩) h
  rw [list_withStrings, list_withStrings] at hlist
  exact List.map_injective_iff.mpr (fun _ _ heq => Value.str.inj heq) hlist

lemma call_split (hsep : sep ≠ []) (s : Store) (this : Text) (limit : Option Int64) :
    call .split this (splitArgs sep limit) s = .ok (.list ⟨s.lists.size⟩)
      (withStrings s (Text.split sep this ((limit.map Int64.toInt).getD (-1)))) := by
  have hpieces : TextMethod.pieces s this (splitArgs sep limit) =
      if sep.isEmpty then .error .emptySeparator
      else .ok ((Text.split sep this ((limit.map Int64.toInt).getD (-1))).map .str) := by
    cases limit <;> rfl
  have hanswer : answer s this (splitArgs sep limit) .split = .ok (.list
      ((Text.split sep this ((limit.map Int64.toInt).getD (-1))).map .str)) := by
    rw [answer, hpieces, isEmpty_eq_false hsep]
    rfl
  rw [call_of_list hanswer, withStrings]

lemma call_count (hsep : sep ≠ []) (s : Store) (this : Text) :
    call .count this [.str sep] s =
      .ok (.int (.ofNat (countFrom sep 0 this))) s := by
  have hcount : countIn sep this 0 this.length =
      countFrom sep 0 this := by
    rw [countIn, if_pos (Nat.zero_le _), Text.window, List.take_length, List.drop_zero, Text.count,
      isEmpty_eq_false hsep]
    rfl
  rw [← hcount]
  exact call_of_value rfl

/-- Joining the strings of a list. -/
lemma call_join {r : Ref .list} {strings : List Text} (h : s.list r = strings.map .str) :
    call .join sep [.list r] s = .ok (.str (List.intercalate sep strings)) s := by
  have htexts : (s.list r).map s.render = strings := by
    rw [h, List.map_map]
    exact List.map_id'' (fun _ => rfl) strings
  rw [← htexts]
  exact call_of_value rfl

/-- **Splitting, joining and counting agree.** Splitting answers a new list of strings.

* There is a piece, joining the pieces gives the text back, and no piece but the last contains the
  separator.
* Without a limit, or with a negative one, the last piece does not contain it either, and there is
  one piece more than counting counts.
* With another limit there are at most so many cuts. The pieces are those without a limit up to
  there, and all that follows joined into the last one. -/
theorem split_join_count_agree (hsep : sep ≠ []) (s : Store) (this : Text) :
    ∃ (all : List Text) (n : Nat), n ≤ this.length ∧
      call .count this [.str sep] s = .ok (.int (.ofNat n)) s ∧
      ∀ limit : Option Int64, ∃ pieces : List Text,
        call .split this (splitArgs sep limit) s =
          .ok (.list ⟨s.lists.size⟩) (withStrings s pieces) ∧
        pieces ≠ [] ∧
        call .join sep [.list ⟨s.lists.size⟩] (withStrings s pieces) =
          .ok (.str this) (withStrings s pieces) ∧
        (∀ piece ∈ pieces.dropLast, ¬ sep <:+: piece) ∧
        ((∀ i ∈ limit, i.toInt < 0) → pieces = all ∧ pieces.length = n + 1 ∧
          ∀ piece ∈ pieces, ¬ sep <:+: piece) ∧
        ∀ i ∈ limit, 0 ≤ i.toInt → pieces.length = min i.toInt.toNat n + 1 ∧
          pieces = all.take (min i.toInt.toNat n) ++
            [List.intercalate sep (all.drop (min i.toInt.toNat n))] := by
  obtain ⟨all, hcuts⟩ := exists_cuts hsep this
  have habsent := hcuts.absent hsep
  refine ⟨all, countFrom sep 0 this, countFrom_le_length .., call_count hsep s this,
    fun limit => ⟨_, call_split hsep s this limit, ?_⟩⟩
  have hk := cutCount_le ((limit.map Int64.toInt).getD (-1)) (countFrom sep 0 this)
  rw [hcuts.split_eq hsep]
  refine ⟨by simp, ?_, ?_, fun hnone => ?_, fun i hi hpos => ?_⟩
  · rw [call_join (list_withStrings ..), hcuts.intercalate_cut hsep hk]
  · intro piece hpiece
    rw [List.dropLast_concat] at hpiece
    exact habsent piece (List.mem_of_mem_take hpiece)
  · have hneg : (limit.map Int64.toInt).getD (-1) < 0 := by
      cases limit with
      | none => decide
      | some i => exact hnone i rfl
    rw [cutCount, if_pos hneg, hcuts.take_append_eq hsep]
    exact ⟨rfl, hcuts.length_eq hsep, habsent⟩
  · obtain rfl : limit = some i := hi
    have hcount : cutCount ((some i).map Int64.toInt |>.getD (-1))
        (countFrom sep 0 this) =
          min i.toInt.toNat (countFrom sep 0 this) :=
            if_neg (Int.not_lt.mpr hpos)
    rw [hcount] at hk ⊢
    exact ⟨hcuts.length_cut hsep hk, rfl⟩

/-- The separator overlaps itself, and the limit comes before the last occurrence. -/
theorem split_of_overlapping_separator : Text.ofString "aa" ≠ [] ∧
    call .count "aaabaaaa" [.str "aa"] .initial = .ok (.int 3) .initial ∧
    ∃ pieces : List Text,
      call .split "aaabaaaa" (splitArgs "aa" (some 2)) .initial =
        .ok (.list ⟨0⟩) (withStrings .initial pieces) ∧
      pieces = ["", "ab", "aa"] ∧
      call .join "aa" [.list ⟨0⟩] (withStrings .initial pieces) =
        .ok (.str "aaabaaaa") (withStrings .initial pieces) := by
  obtain ⟨all, n, -, -, h⟩ := split_join_count_agree (by decide : ofString "aa" ≠ []) .initial
    "aaabaaaa"
  obtain ⟨pieces, hsplit, -, hjoin, -⟩ := h (some 2)
  have hpieces := withStrings_injective _ (EStateM.Result.ok.inj
    (hsplit.symm.trans (call_split (by decide) .initial "aaabaaaa" (some 2)))).2
  refine ⟨by decide, call_count (by decide) .initial "aaabaaaa", pieces, hsplit, ?_, hjoin⟩
  rw [hpieces]
  decide +kernel

end Wei.TextMethod
