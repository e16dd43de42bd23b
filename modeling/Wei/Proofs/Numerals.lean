import Mathlib.Data.Nat.Digits.Lemmas
import Wei.Builtin

/-!
The texts of numbers are faithful. An integer is written in decimal or, with a mark, in one of three
other bases: a minus if it is negative, then the mark, then its digits, which come by dividing by
the base again and again. Read by the places of its digits the text gives the integer back, also for
the least one, whose absolute value is no integer of 64 bits. So no two integers have one text.
-/

namespace Wei

namespace Numeral

/-! ### Reading by places -/

/-- The digits of all bases, in order. -/
def digitRow : List Char := "0123456789abcdef".toList

/-- The number for which a character stands as a digit of a base, if it is one. -/
def digit? (base : Nat) (c : Char) : Option Nat := (digitRow.take base).idxOf? c

/-- The number for which digits stand, each of which counts for as much as its place says. There
must be one at least. -/
def positional? (base : Nat) (cs : List Char) : Option Nat :=
  if cs.isEmpty then none else (cs.mapM (digit? base)).map fun ds => Nat.ofDigits base ds.reverse

/-- Reads a mark and digits. -/
def unsigned? (mark : String) (base : Nat) (cs : List Char) : Option Nat :=
  (cs.dropPrefix? mark.toList).bind (positional? base)

/-- **Reads a numeral**: a minus or nothing, then the mark, then digits of the base. -/
def read? (mark : String) (base : Nat) (text : String) : Option Int :=
  let cs := text.toList
  if cs.head? = some '-' then (unsigned? mark base cs.tail).map fun n : Nat => -(n : Int)
  else (unsigned? mark base cs).map fun n : Nat => (n : Int)

/-- **The texts of the integers are faithful**: they are numerals of this base and with this mark
that read as the integer, with no zero too many. -/
structure Faithful (mark : String) (base : Nat) (text : Int64 → String) : Prop where
  /-- The text of an integer reads as that integer. -/
  reads (n : Int64) : read? mark base (text n) = some n.toInt
  /-- After sign and mark come the digits, and a zero in front of them is all there is. -/
  tight (n : Int64) : ∃ digits, (text n).toList =
    (if n < 0 then ['-'] else []) ++ mark.toList ++ digits ∧
      (digits.head? = some '0' → digits = ['0'])
  /-- There is a minus in front of the negative ones only. -/
  minus (n : Int64) : (text n).toList.head? = some '-' ↔ n < 0
  /-- Different integers have different texts. -/
  apart : Function.Injective text

/-! ### The digits that division gives -/

variable {base n d : Nat}

/-- **Dividing by the base again and again gives the digits by their places**, the last one
first. -/
lemma toDigits_eq_map (hbase : 1 < base) (hn : 0 < n) :
    Nat.toDigits base n = (Nat.digits base n).reverse.map Nat.digitChar := by
  induction n using Nat.strongRecOn with
  | ind n ih =>
    rw [Nat.toDigits_eq_if hbase, Nat.digits_def' hbase hn, List.reverse_cons, List.map_append]
    by_cases hlt : n < base
    · rw [if_pos hlt, Nat.mod_eq_of_lt hlt, Nat.div_eq_of_lt hlt]
      simp
    · have hle : base ≤ n := Nat.le_of_not_lt hlt
      have hpos : 0 < n / base := Nat.div_pos hle (by omega)
      rw [if_neg hlt, ih (n / base) (Nat.div_lt_self hn hbase) hpos]
      rfl

lemma digit?_digitChar (hbase : base ≤ 16) (hd : d < base) :
    digit? base (Nat.digitChar d) = some d := by
  have hall : ∀ b < 17, ∀ d < b, digit? b (Nat.digitChar d) = some d := by decide
  exact hall base (by omega) d hd

lemma mapM_digit? (hbase : base ≤ 16) {ds : List Nat} (hds : ∀ d ∈ ds, d < base) :
    (ds.map Nat.digitChar).mapM (digit? base) = some ds := by
  induction ds with
  | nil => rfl
  | cons d ds ih =>
    have hd := digit?_digitChar hbase (hds d List.mem_cons_self)
    have hrest := ih fun e he => hds e (List.mem_cons_of_mem d he)
    rw [List.map_cons, List.mapM_cons, hd, hrest]
    rfl

/-- **The digits of a number stand for it.** -/
lemma positional?_toDigits (hbase : 1 < base) (hle : base ≤ 16) (n : Nat) :
    positional? base (Nat.toDigits base n) = some n := by
  have hne : (Nat.toDigits base n).isEmpty = false := by simp [Nat.toDigits_ne_nil]
  rw [positional?, hne]
  rcases Nat.eq_zero_or_pos n with rfl | hn
  · have hzero : Nat.toDigits base 0 = [0].map Nat.digitChar := Nat.toDigits_zero base
    rw [hzero, mapM_digit? hle (by simp; omega)]
    simp
  · have hds : ∀ d ∈ (Nat.digits base n).reverse, d < base := fun d hd =>
      Nat.digits_lt_base hbase (List.mem_reverse.mp hd)
    rw [toDigits_eq_map hbase hn, mapM_digit? hle hds]
    simp [Nat.ofDigits_digits]

/-- **There is no zero in front**, but for that of zero itself. -/
lemma toDigits_of_head?_eq_zero (hbase : 1 < base) (h : (Nat.toDigits base n).head? = some '0') :
    Nat.toDigits base n = ['0'] := by
  rcases Nat.eq_zero_or_pos n with rfl | hn
  · exact Nat.toDigits_zero base
  · have hne : Nat.digits base n ≠ [] := Nat.digits_ne_nil_iff_ne_zero.mpr hn.ne'
    rw [toDigits_eq_map hbase hn, List.head?_map, List.head?_reverse,
      List.getLast?_eq_getLast_of_ne_nil hne] at h
    -- the digit of the highest place is not zero
    have hlast := Nat.digitChar_eq_zero.mp (Option.some.inj h)
    exact absurd hlast (Nat.getLast_digit_ne_zero base hn.ne')

lemma head?_toDigits_ne_minus (hbase : 1 < base) : (Nat.toDigits base n).head? ≠ some '-' := by
  intro h
  rcases Nat.eq_zero_or_pos n with rfl | hn
  · rw [Nat.toDigits_zero] at h
    cases h
  · rw [toDigits_eq_map hbase hn, List.head?_map] at h
    obtain ⟨d, -, hd⟩ := Option.map_eq_some_iff.mp h
    exact Nat.digitChar_ne '-' (by decide) hd

/-! ### Sign, mark and digits -/

variable {mark : String}

lemma toList_signed (mark : String) (base : Nat) (z : Int) :
    (signed mark base z).toList =
      (if z < 0 then ['-'] else []) ++ mark.toList ++ Nat.toDigits base z.natAbs := by
  rw [signed, String.toList_append, String.toList_append, String.toList_ofList]
  split <;> rfl

lemma unsigned?_append (hbase : 1 < base) (hle : base ≤ 16) (n : Nat) :
    unsigned? mark base (mark.toList ++ Nat.toDigits base n) = some n := by
  rw [unsigned?, List.dropPrefix?_append_of_beq _ (beq_self_eq_true mark.toList), Option.bind_some,
    positional?_toDigits hbase hle]

/-- The minus is a sign of negative integers only, if the mark does not begin with one. -/
lemma head?_signed_iff (hbase : 1 < base) (hmark : mark.toList.head? ≠ some '-') (z : Int) :
    (signed mark base z).toList.head? = some '-' ↔ z < 0 := by
  rw [toList_signed]
  by_cases hz : z < 0
  · simp [hz]
  · have hhead : (mark.toList ++ Nat.toDigits base z.natAbs).head? ≠ some '-' := by
      rw [List.head?_append]
      cases hm : mark.toList.head? with
      | none => exact head?_toDigits_ne_minus hbase
      | some c =>
        rw [hm] at hmark
        exact hmark
    rw [if_neg hz, List.nil_append]
    exact iff_of_false hhead hz

/-- **The text of an integer reads as that integer.** -/
lemma read?_signed (hbase : 1 < base) (hle : base ≤ 16) (hmark : mark.toList.head? ≠ some '-')
    (z : Int) : read? mark base (signed mark base z) = some z := by
  have hminus := head?_signed_iff hbase hmark z
  unfold read?
  dsimp only
  by_cases hz : z < 0
  · rw [if_pos (hminus.mpr hz), toList_signed, if_pos hz, List.append_assoc, List.singleton_append,
      List.tail_cons, unsigned?_append hbase hle, Option.map_some]
    congr 1
    omega
  · rw [if_neg fun h => hz (hminus.mp h), toList_signed, if_neg hz, List.nil_append,
      unsigned?_append hbase hle, Option.map_some]
    congr 1
    omega

lemma faithful_signed (hbase : 1 < base) (hle : base ≤ 16)
    (hmark : mark.toList.head? ≠ some '-') :
    Faithful mark base fun n => signed mark base n.toInt := by
  have hneg (n : Int64) : n < 0 ↔ n.toInt < 0 := Int64.lt_iff_toInt_lt
  have hreads (n : Int64) := read?_signed hbase hle hmark n.toInt
  refine ⟨hreads, fun n => ⟨Nat.toDigits base n.toInt.natAbs, ?_, toDigits_of_head?_eq_zero hbase⟩,
    fun n => ?_, fun n k hnk => ?_⟩
  · rw [toList_signed]
    simp only [hneg]
  · rw [hneg]
    exact head?_signed_iff hbase hmark n.toInt
  · -- they read the same
    have hread := hreads n
    rw [show signed mark base n.toInt = signed mark base k.toInt from hnk, hreads k] at hread
    exact (Int64.toInt_inj.mp (Option.some.inj hread)).symm

end Numeral

/-! ### What scripts see -/

/-- A call with one integer writes it in the radix, and prints nothing. -/
lemma Builtin.call_of_inRadix {b : Builtin} {r : Radix} {w : World} {n : Int64}
    (hanswer : b.answer w.store [.int n] = inRadix r w.store [.int n])
    (houtput : b.output w.store [.int n] = "") :
    b.call [.int n] w = .ok (.str (Numeral.signed r.mark r.base n.toInt)) w := by
  have hok : b.answer w.store [.int n] = .ok (.str (Numeral.signed r.mark r.base n.toInt)) :=
    hanswer
  have houtcome : b.outcome w.store [.int n] =
      .ok (.str (Numeral.signed r.mark r.base n.toInt)) := by
    unfold outcome
    rw [hok]
    cases b with
    | print => cases hok
    | _ => rfl
  unfold Builtin.call
  rw [houtcome, houtput, String.append_empty]

/-- **The texts of numbers are faithful.** For every integer, the least one included, what `bin`,
`oct` and `hex` answer and how an integer prints are numerals of base 2, 8, 16 and 10, with the mark
of the base or without one. They read as the integer, have no zero too many and a minus just for
the negative ones, and differ for different integers. -/
theorem number_texts_are_faithful (w : World) :
    (∃ text, (∀ n, Builtin.call .bin [.int n] w = .ok (.str (text n)) w) ∧
      Numeral.Faithful "0b" 2 text) ∧
    (∃ text, (∀ n, Builtin.call .oct [.int n] w = .ok (.str (text n)) w) ∧
      Numeral.Faithful "0o" 8 text) ∧
    (∃ text, (∀ n, Builtin.call .hex [.int n] w = .ok (.str (text n)) w) ∧
      Numeral.Faithful "0x" 16 text) ∧
    ∃ text : Int64 → String, (∀ n, w.store.render (.int n) = text n) ∧
      Numeral.Faithful "" 10 text := by
  refine ⟨⟨_, fun n => Builtin.call_of_inRadix (r := .binary) rfl rfl, ?_⟩,
    ⟨_, fun n => Builtin.call_of_inRadix (r := .octal) rfl rfl, ?_⟩,
    ⟨_, fun n => Builtin.call_of_inRadix (r := .hexadecimal) rfl rfl, ?_⟩,
    ⟨_, fun _ => rfl, ?_⟩⟩
  · exact Numeral.faithful_signed (by decide) (by decide) (by decide)
  · exact Numeral.faithful_signed (by decide) (by decide) (by decide)
  · exact Numeral.faithful_signed (by decide) (by decide) (by decide)
  · exact Numeral.faithful_signed (by decide) (by decide) (by decide)

example : Numeral.marked .hexadecimal Int64.minValue.toInt = "-0x8000000000000000" := by
  decide +kernel

end Wei
