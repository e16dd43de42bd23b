import Mathlib.Data.Int.Bitwise
import Mathlib.Data.Int.ModEq
import Mathlib.Tactic.Lemma
import Wei.Eval.Expression

/-!
The integers of the language are words of 64 bits. Operators are computed on integers of any size:
division takes absolute values and puts the sign in afterwards, counts of shifts are cut off, and
the outcome wraps around. For all operands this comes to what a machine does with its words, those
with a sign and the least one included, and for shifts by any count.
-/

namespace Wei

/-! ### Wrapping around -/

/-- The integer `z` wraps around to `k`: the one that is the same modulo 2 ^ 64, among those that 64
bits with a sign can tell apart. -/
structure WrapsTo (z k : Int) : Prop where
  least : -2 ^ 63 ≤ k
  most : k < 2 ^ 63
  modEq : k ≡ z [ZMOD 2 ^ 64]

/-- No integer wraps around to two others. -/
lemma WrapsTo.unique {z k j : Int} (h : WrapsTo z k) (h' : WrapsTo z j) : k = j := by
  have hmod : k % 2 ^ 64 = j % 2 ^ 64 := h.modEq.trans h'.modEq.symm
  have := h.least
  have := h.most
  have := h'.least
  have := h'.most
  omega

namespace Integer

/-- To take bits out of the mask is to subtract them. -/
lemma mask_xor (m : Nat) : mask ^^^ (mask &&& m) = mask - m % 2 ^ 64 := by
  have hand : mask &&& m = m % 2 ^ 64 := by
    rw [Nat.and_comm]
    exact Nat.and_two_pow_sub_one_eq_mod m 64
  have hnot := BitVec.toNat_not (x := BitVec.ofNat 64 m)
  rw [BitVec.not_def, BitVec.toNat_xor, BitVec.toNat_allOnes, BitVec.toNat_ofNat] at hnot
  rw [hand]
  exact hnot

/-- What the mask leaves is the remainder, of negative integers too. -/
lemma land_mask (n : Int) : land n mask = n % 2 ^ 64 := by
  cases n with
  | ofNat m => exact congrArg Int.ofNat (Nat.and_two_pow_sub_one_eq_mod m 64)
  | negSucc m =>
    have hlt : m % 2 ^ 64 < 2 ^ 64 := Nat.mod_lt _ (by decide)
    have hmask : mask = 2 ^ 64 - 1 := by decide
    rw [Int.negSucc_emod _ (by decide)]
    show ((mask ^^^ (mask &&& m) : Nat) : Int) = _
    rw [mask_xor, hmask]
    omega

lemma wrapsTo_wrap (z : Int) : WrapsTo z (wrap z) where
  least := least_le_wrap z
  most := Int.lt_of_le_of_lt (wrap_le_greatest z) (by decide)
  modEq := by
    show wrap z % 2 ^ 64 = z % 2 ^ 64
    rw [wrap, land_mask, Int.emod_sub_emod, Int.add_sub_cancel]

/-- The word of an integer holds what it wraps around to. -/
lemma toInt_ofInt_eq_wrap (z : Int) : (BitVec.ofInt 64 z).toInt = wrap z := by
  have h : WrapsTo z (BitVec.ofInt 64 z).toInt := by
    rw [BitVec.toInt_ofInt]
    exact ⟨Int.le_bmod (by decide), Int.bmod_lt (by decide), Int.bmod_emod⟩
  exact h.unique (wrapsTo_wrap z)

end Integer

lemma Value.integer_eq (z : Int) : Value.integer z = .int (.ofBitVec (.ofInt 64 z)) := by
  refine congrArg Value.int (Int64.toInt_inj.mp ?_)
  rw [Int64.toInt_ofIntLE]
  exact (Integer.toInt_ofInt_eq_wrap z).symm

/-! ### What operators stand for -/

namespace BinaryOp

/-- The operation on words for which an operator stands, unless it compares. A shift takes its count
as it is, however large. -/
def onWords? (op : BinaryOp) (x y : BitVec 64) : Option (BitVec 64) :=
  match op with
  | .add => some (x + y)
  | .sub => some (x - y)
  | .mul => some (x * y)
  | .div => some (x.sdiv y)
  | .mod => some (x.srem y)
  | .bitAnd => some (x &&& y)
  | .bitOr => some (x ||| y)
  | .bitXor => some (x ^^^ y)
  | .shiftLeft => some (x <<< y.toInt.toNat)
  | .shiftRight => some (x.sshiftRight y.toInt.toNat)
  | _ => none

/-- How an operator compares two integers, if it does. -/
def compares? (op : BinaryOp) (x y : Int) : Option Bool :=
  match op with
  | .lt => some (x < y)
  | .le => some (x ≤ y)
  | .gt => some (y < x)
  | .ge => some (y ≤ x)
  | .eq => some (x = y)
  | .ne => some (x ≠ y)
  | _ => none

/-- In which kind of fault an operator ends over its right operand, if it does. -/
def refuses? (op : BinaryOp) (y : Int) : Option FaultKind :=
  match op with
  | .div | .mod => if y = 0 then some .zeroDivision else none
  | .shiftLeft | .shiftRight => if y < 0 then some .badValue else none
  | _ => none

end BinaryOp

/-- The operation on a word for which an operator stands. -/
def UnaryOp.onWord? (op : UnaryOp) (x : BitVec 64) : Option (BitVec 64) :=
  match op with
  | .negate => some (-x)
  | .plus => some x
  | .complement => some (~~~x)
  | _ => none

/-! ### Bits -/

namespace Integer

/-- To take the common bits away from the bits of a number leaves those that the other lacks. -/
lemma xor_and_eq_ldiff (m n : Nat) : m ^^^ (m &&& n) = Nat.ldiff m n := by
  refine Nat.eq_of_testBit_eq fun i => ?_
  rw [Nat.testBit_xor, Nat.testBit_and, Nat.testBit_ldiff]
  cases m.testBit i <;> simp

lemma land_eq (a b : Int) : land a b = a.land b := by
  cases a <;> cases b <;> simp only [land, Int.land, xor_and_eq_ldiff, Int.ofNat_eq_natCast]

lemma lor_eq (a b : Int) : lor a b = a.lor b := by
  cases a with
  | ofNat m =>
    cases b with
    | ofNat n => rfl
    | negSucc n => exact congrArg Int.negSucc (xor_and_eq_ldiff n m)
  | negSucc m =>
    cases b with
    | ofNat n => exact congrArg Int.negSucc (xor_and_eq_ldiff m n)
    | negSucc n => rfl

lemma xor_eq (a b : Int) : xor a b = a.xor b := by
  cases a <;> cases b <;> rfl

end Integer

/-- The bits of a word are those of the integer, as far as there is room. -/
lemma getLsbD_ofInt {w : Nat} (z : Int) (i : Nat) :
    (BitVec.ofInt w z).getLsbD i = (decide (i < w) && z.testBit i) := by
  cases z with
  | ofNat m =>
    rw [Int.ofNat_eq_natCast, BitVec.ofInt_natCast, BitVec.getLsbD_ofNat]
    rfl
  | negSucc m =>
    rw [BitVec.ofInt_negSucc_eq_not_ofNat, BitVec.getLsbD_not, BitVec.getLsbD_ofNat]
    by_cases hi : i < w
    · simp [hi, Int.testBit]
    · simp [hi]

section Bits

variable {w : Nat} (x y : BitVec w)

lemma testBit_toInt {i : Nat} (hi : i < w) : x.toInt.testBit i = x.getLsbD i := by
  have h := getLsbD_ofInt (w := w) x.toInt i
  rw [BitVec.ofInt_toInt, decide_eq_true hi, Bool.true_and] at h
  exact h.symm

/-- What is done bit by bit can be done to words. -/
lemma ofInt_bitwise {f : Bool → Bool → Bool} {z : BitVec w}
    (h : ∀ i, i < w → z.getLsbD i = f (x.getLsbD i) (y.getLsbD i)) :
    BitVec.ofInt w (Int.bitwise f x.toInt y.toInt) = z := by
  refine BitVec.eq_of_getLsbD_eq fun i hi => ?_
  rw [getLsbD_ofInt, decide_eq_true hi, Bool.true_and, Int.testBit_bitwise, testBit_toInt x hi,
    testBit_toInt y hi, h i hi]

lemma ofInt_land : BitVec.ofInt w (Integer.land x.toInt y.toInt) = x &&& y := by
  rw [Integer.land_eq, ← Int.bitwise_and]
  exact ofInt_bitwise x y fun i _ => BitVec.getLsbD_and

lemma ofInt_lor : BitVec.ofInt w (Integer.lor x.toInt y.toInt) = x ||| y := by
  rw [Integer.lor_eq, ← Int.bitwise_or]
  exact ofInt_bitwise x y fun i _ => BitVec.getLsbD_or

lemma ofInt_xor : BitVec.ofInt w (Integer.xor x.toInt y.toInt) = x ^^^ y := by
  rw [Integer.xor_eq, ← Int.bitwise_xor]
  exact ofInt_bitwise x y fun i _ => BitVec.getLsbD_xor

lemma ofInt_not : BitVec.ofInt w (~~~x.toInt) = ~~~x := by
  have hlnot : ~~~x.toInt = x.toInt.lnot := by
    cases x.toInt <;> rfl
  refine BitVec.eq_of_getLsbD_eq fun i hi => ?_
  rw [hlnot, getLsbD_ofInt, BitVec.getLsbD_not, Int.testBit_lnot, testBit_toInt x hi]

/-- A shift to the left multiplies, however far it goes. -/
lemma ofInt_shiftLeft (n : Nat) : BitVec.ofInt w (Int.shiftLeft x.toInt n) = x <<< n := by
  have hpow : BitVec.ofInt w (2 ^ n) = BitVec.twoPow w n := by
    refine BitVec.eq_of_toNat_eq ?_
    rw [show (2 ^ n : Int) = ((2 ^ n : Nat) : Int) by push_cast; rfl, BitVec.ofInt_natCast,
      BitVec.toNat_ofNat, BitVec.toNat_twoPow]
  have hmul : Int.shiftLeft x.toInt n = x.toInt * 2 ^ n := Int.shiftLeft_eq x.toInt n
  rw [hmul, BitVec.ofInt_mul, BitVec.ofInt_toInt, BitVec.shiftLeft_eq_mul_twoPow, hpow]

lemma ofInt_shiftRight (n : Nat) : BitVec.ofInt w (Int.shiftRight x.toInt n) = x.sshiftRight n := by
  have h : (x.sshiftRight n).toInt = Int.shiftRight x.toInt n := BitVec.toInt_sshiftRight
  rw [← h, BitVec.ofInt_toInt]

end Bits

/-- All shifts to the right from 63 on leave nothing but the sign. -/
lemma sshiftRight_of_le (x : BitVec 64) {n : Nat} (hn : 63 ≤ n) :
    x.sshiftRight n = x.sshiftRight 63 := by
  refine BitVec.eq_of_getLsbD_eq fun i hi => ?_
  have sign (m : Nat) (hm : 63 ≤ m) : (x.sshiftRight m).getLsbD i = x.msb := by
    rw [BitVec.getLsbD_sshiftRight, decide_eq_false (by omega), Bool.not_false, Bool.true_and]
    split
    · next h =>
      obtain rfl : m = 63 := by omega
      obtain rfl : i = 0 := by omega
      rfl
    · rfl
  exact (sign n hn).trans (sign 63 le_rfl).symm

/-! ### Division, and shifts by any count -/

namespace Integer

variable {a b : Int}

lemma natAbs_eq (a : Int) : (a.natAbs : Int) = if a < 0 then -a else a := by
  split
  · next h => exact Int.ofNat_natAbs_of_nonpos (Int.le_of_lt h)
  · next h => exact Int.natAbs_of_nonneg (Int.not_lt.mp h)

/-- To divide absolute values and to put in the sign afterwards is to divide toward zero. -/
lemma divide_eq (hb : b ≠ 0) : divide a b = .ok (a.tdiv b) := by
  have hfloor : Int.fdiv a.natAbs b.natAbs = Int.tdiv a.natAbs b.natAbs :=
    (Int.fdiv_eq_ediv_of_nonneg _ (Int.natCast_nonneg _)).trans (Int.ofNat_tdiv ..)
  rw [divide, if_neg hb, hfloor, natAbs_eq a, natAbs_eq b]
  refine congrArg Except.ok ?_
  by_cases ha : a < 0 <;> by_cases hb : b < 0 <;> simp [ha, hb, Int.neg_tdiv, Int.tdiv_neg]

/-- The remainder of absolute values, with the sign of the dividend, is that of the division
toward zero. -/
lemma modulo_eq (hb : b ≠ 0) : modulo a b = .ok (a.tmod b) := by
  have hfloor : Int.fmod a.natAbs b.natAbs = Int.tmod a.natAbs b.natAbs :=
    (Int.fmod_eq_emod_of_nonneg _ (Int.natCast_nonneg _)).trans (Int.ofNat_tmod ..)
  rw [modulo, if_neg hb, hfloor, natAbs_eq a, natAbs_eq b]
  refine congrArg Except.ok ?_
  by_cases ha : a < 0 <;> by_cases hb : b < 0 <;> simp [ha, hb, Int.neg_tmod, Int.tmod_neg]

/-- Where a shift to the left is cut off, no bit would be left in the word. -/
lemma ofInt_cut_shiftLeft (x : BitVec 64) (n : Int) :
    BitVec.ofInt 64 (if n < 64 then Int.shiftLeft x.toInt n.toNat else 0) = x <<< n.toNat := by
  split
  · exact ofInt_shiftLeft x n.toNat
  · next h =>
    have hlarge : 64 ≤ n.toNat := Int.toNat_le_toNat (Int.not_lt.mp h)
    exact (BitVec.shiftLeft_eq_zero hlarge).symm

/-- Where the count of a shift to the right is cut off, it makes no difference any more. -/
lemma ofInt_cut_shiftRight (x : BitVec 64) (n : Int) :
    BitVec.ofInt 64 (Int.shiftRight x.toInt (min n 63).toNat) = x.sshiftRight n.toNat := by
  rw [ofInt_shiftRight]
  rcases Int.le_total n 63 with h | h
  · rw [Int.min_eq_left h]
  · rw [Int.min_eq_right h]
    have hlarge : 63 ≤ n.toNat := Int.toNat_le_toNat h
    exact (sshiftRight_of_le x hlarge).symm

end Integer

/-! ### Operators on words -/

namespace BinaryOp

variable {a b : Int64}

/-- What an operator that is not refused answers is what it comes to on words. -/
lemma onIntegers?_of_onWords? {op : BinaryOp} {x : BitVec 64}
    (hx : op.onWords? a.toBitVec b.toBitVec = some x) (hr : op.refuses? b.toInt = none) :
    op.onIntegers? a b = some (.ok (.int (.ofBitVec x))) := by
  -- it is enough that the outcome on integers of any size has this word
  suffices h : ∃ z, op.onIntegers? a b = some (.ok (.integer z)) ∧ BitVec.ofInt 64 z = x by
    obtain ⟨z, hz, rfl⟩ := h
    rw [hz, Value.integer_eq]
  have hzero (h : op.refuses? b.toInt = if b.toInt = 0 then some .zeroDivision else none) :
      b.toInt ≠ 0 := by
    intro h0
    rw [h, if_pos h0] at hr
    cases hr
  have hcount (h : op.refuses? b.toInt = if b.toInt < 0 then some .badValue else none) :
      ¬ b.toInt < 0 := by
    intro h0
    rw [h, if_pos h0] at hr
    cases hr
  cases op with
  | add =>
    obtain rfl := Option.some_inj.mp hx
    refine ⟨_, rfl, ?_⟩
    rw [BitVec.ofInt_add]
    exact congrArg₂ _ BitVec.ofInt_toInt BitVec.ofInt_toInt
  | sub =>
    obtain rfl := Option.some_inj.mp hx
    refine ⟨_, rfl, ?_⟩
    rw [Int.sub_eq_add_neg, BitVec.ofInt_add, BitVec.ofInt_neg, BitVec.sub_eq_add_neg]
    exact congrArg₂ (fun x y => x + -y) BitVec.ofInt_toInt BitVec.ofInt_toInt
  | mul =>
    obtain rfl := Option.some_inj.mp hx
    refine ⟨_, rfl, ?_⟩
    rw [BitVec.ofInt_mul]
    exact congrArg₂ _ BitVec.ofInt_toInt BitVec.ofInt_toInt
  | div =>
    obtain rfl := Option.some_inj.mp hx
    refine ⟨a.toInt.tdiv b.toInt, ?_, BitVec.eq_of_toInt_eq ?_⟩
    · simp only [onIntegers?, compute?, Integer.divide_eq (hzero rfl), Except.map]
    · rw [BitVec.toInt_sdiv, BitVec.toInt_ofInt]
      rfl
  | mod =>
    obtain rfl := Option.some_inj.mp hx
    refine ⟨a.toInt.tmod b.toInt, ?_, ?_⟩
    · simp only [onIntegers?, compute?, Integer.modulo_eq (hzero rfl), Except.map]
    · show BitVec.ofInt 64 (a.toBitVec.toInt.tmod b.toBitVec.toInt) = _
      rw [← BitVec.toInt_srem, BitVec.ofInt_toInt]
  | bitAnd =>
    obtain rfl := Option.some_inj.mp hx
    exact ⟨_, rfl, ofInt_land a.toBitVec b.toBitVec⟩
  | bitOr =>
    obtain rfl := Option.some_inj.mp hx
    exact ⟨_, rfl, ofInt_lor a.toBitVec b.toBitVec⟩
  | bitXor =>
    obtain rfl := Option.some_inj.mp hx
    exact ⟨_, rfl, ofInt_xor a.toBitVec b.toBitVec⟩
  | shiftLeft =>
    obtain rfl := Option.some_inj.mp hx
    refine ⟨_, ?_, Integer.ofInt_cut_shiftLeft a.toBitVec b.toInt⟩
    simp only [onIntegers?, compute?, Integer.shiftLeft, if_neg (hcount rfl), Except.map]
    rfl
  | shiftRight =>
    obtain rfl := Option.some_inj.mp hx
    refine ⟨_, ?_, Integer.ofInt_cut_shiftRight a.toBitVec b.toInt⟩
    simp only [onIntegers?, compute?, Integer.shiftRight, if_neg (hcount rfl), Except.map]
    rfl
  | _ => cases hx

lemma onIntegers?_of_compares? {op : BinaryOp} {c : Bool}
    (hc : op.compares? a.toInt b.toInt = some c) : op.onIntegers? a b = some (.ok (.bool c)) := by
  cases op with
  | lt | le | gt | ge | eq | ne =>
    obtain rfl := Option.some_inj.mp hc
    rfl
  | _ => cases hc

/-- An operator fails over its right operand or not at all. -/
lemma onIntegers?_refused {op : BinaryOp} (hop : ∀ symbol, op ≠ .other symbol) :
    ∃ answer, op.onIntegers? a b = some answer ∧ ∀ kind,
      (∃ f : Fault, answer = .error f ∧ f.kind = kind) ↔ op.refuses? b.toInt = some kind := by
  cases op with
  | other symbol => exact absurd rfl (hop symbol)
  | div | mod | shiftLeft | shiftRight =>
    refine ⟨_, rfl, fun kind => ?_⟩
    simp only [refuses?, Integer.divide, Integer.modulo, Integer.shiftLeft, Integer.shiftRight]
    split
    · exact ⟨by rintro ⟨f, hf, rfl⟩; cases hf; rfl, by rintro ⟨⟩; exact ⟨_, rfl, rfl⟩⟩
    · simp [Except.map]
  | _ => exact ⟨_, rfl, fun kind => by simp [refuses?]⟩

/-- A shift that moves every bit out leaves nothing, and one to the right leaves the sign. -/
lemma shift_past_width (hb : 64 ≤ b.toInt) :
    BinaryOp.shiftLeft.onIntegers? a b = some (.ok (.int 0)) ∧
      BinaryOp.shiftRight.onIntegers? a b = some (.ok (.int (if a < 0 then -1 else 0))) := by
  have hnonneg : ¬ b.toInt < 0 := Int.not_lt.mpr (Int.le_trans (by decide) hb)
  have hlarge : ¬ b.toInt < 64 := Int.not_lt.mpr hb
  have hcut : min b.toInt 63 = 63 := Int.min_eq_right (Int.le_trans (by decide) hb)
  simp only [onIntegers?, compute?, Integer.shiftLeft, Integer.shiftRight, if_neg hnonneg,
    if_neg hlarge, hcut, Except.map, Option.some.injEq, Except.ok.injEq]
  have hshift : Int.shiftRight a.toInt 63 = a.toInt / ((2 ^ 63 : Nat) : Int) :=
    Int.shiftRight_eq_div_pow a.toInt 63
  have hleast : -2 ^ 63 ≤ a.toInt := a.le_toInt
  have hmost : a.toInt < 2 ^ 63 := a.toInt_lt
  refine ⟨by decide, ?_⟩
  show Value.integer (Int.shiftRight a.toInt 63) = _
  split
  · next h =>
    have hneg : a.toInt < 0 := Int64.lt_iff_toInt_lt.mp h
    rw [hshift, show a.toInt / ((2 ^ 63 : Nat) : Int) = -1 by omega]
    decide
  · next h =>
    have hpos : 0 ≤ a.toInt := Int.not_lt.mp fun h' => h (Int64.lt_iff_toInt_lt.mpr h')
    rw [hshift, show a.toInt / ((2 ^ 63 : Nat) : Int) = 0 by omega]
    decide

/-- Quotient and remainder make up the dividend again, on words as on integers of any size. -/
lemma sdiv_mul_add_srem (x y : BitVec 64) : x.sdiv y * y + x.srem y = x := by
  have hdiv : x.sdiv y = .ofInt 64 (x.toInt.tdiv y.toInt) := by
    refine BitVec.eq_of_toInt_eq ?_
    rw [BitVec.toInt_sdiv, BitVec.toInt_ofInt]
  have hmod : x.srem y = .ofInt 64 (x.toInt.tmod y.toInt) := by
    rw [← BitVec.toInt_srem, BitVec.ofInt_toInt]
  calc x.sdiv y * y + x.srem y
      = .ofInt 64 (x.toInt.tdiv y.toInt * y.toInt + x.toInt.tmod y.toInt) := by
        rw [hdiv, hmod, BitVec.ofInt_add, BitVec.ofInt_mul, BitVec.ofInt_toInt]
    _ = .ofInt 64 x.toInt := by rw [Int.mul_comm, Int.mul_tdiv_add_tmod]
    _ = x := BitVec.ofInt_toInt

end BinaryOp

lemma UnaryOp.apply_of_onWord? {op : UnaryOp} {a : Int64} {x : BitVec 64} (s : Store)
    (hx : op.onWord? a.toBitVec = some x) : op.apply s (.int a) = .ok (.int (.ofBitVec x)) := by
  cases op with
  | negate =>
    obtain rfl := Option.some_inj.mp hx
    show Except.ok (Value.integer (-a.toBitVec.toInt)) = _
    rw [Value.integer_eq, BitVec.ofInt_neg, BitVec.ofInt_toInt]
  | plus =>
    obtain rfl := Option.some_inj.mp hx
    show Except.ok (Value.integer a.toBitVec.toInt) = _
    rw [Value.integer_eq, BitVec.ofInt_toInt]
  | complement =>
    obtain rfl := Option.some_inj.mp hx
    show Except.ok (Value.integer (~~~a.toBitVec.toInt)) = _
    rw [Value.integer_eq, ofInt_not]
  | _ => cases hx

/-- The sign of a remainder is that of the dividend, if there is a remainder at all. -/
lemma sign_mod (a b : Int64) : a % b = 0 ∨ (a % b).toInt.sign = a.toInt.sign := by
  have hsign : (a % b).toInt.sign = if b.toInt ∣ a.toInt then 0 else a.toInt.sign := by
    rw [Int64.toInt_mod, Int.sign_tmod]
  split at hsign
  · exact .inl (Int64.toInt_inj.mp (Int.sign_eq_zero_iff_zero.mp hsign))
  · exact .inr hsign

/-- A remainder is closer to zero than the divisor. -/
lemma natAbs_mod_lt (a : Int64) {b : Int64} (hb : b ≠ 0) :
    (a % b).toInt.natAbs < b.toInt.natAbs := by
  have hpos : 0 < b.toInt.natAbs := Int.natAbs_pos.mpr fun h => hb (Int64.toInt_inj.mp h)
  rw [Int64.toInt_mod, Int.natAbs_tmod]
  exact Nat.mod_lt _ hpos

/-- **The integers of the language are words of 64 bits.**

* To wrap an integer of any size around is to take the only one that is the same modulo 2 ^ 64 among
  those that 64 bits with a sign can tell apart. An integer that a program writes is wrapped around.
* An operator on two integers, unless it compares or is refused, answers what the operation for
  which it stands answers on words. The same holds of the operators on one integer.
* Division, on integers of any size, goes toward zero, and the remainder is the one of that
  division.
* A shift by 64 or more leaves no bit, but to the right it leaves the sign.
* The least integer, divided by -1, is itself.
* Comparisons are those of the integers with their signs.
* An operator is refused over a divisor of zero or a negative count of a shift, and otherwise has an
  answer.
* Quotient times divisor plus remainder, by the operators of the language themselves, is the
  dividend. The remainder is closer to zero than the divisor, and it is zero or has the sign of the
  dividend. -/
theorem integers_are_words (s : Store) :
    (∀ z k : Int, WrapsTo z k ↔ k = Integer.wrap z) ∧
    (∀ z : Int, ∃ w, (Literal.int z).value = .ok (.int w) ∧ w.toInt = Integer.wrap z) ∧
    (∀ (op : BinaryOp) (a b : Int64) (x : BitVec 64),
      op.onWords? a.toBitVec b.toBitVec = some x → op.refuses? b.toInt = none →
        op.apply s (.int a) (.int b) = .ok (.int (.ofBitVec x))) ∧
    (∀ (op : UnaryOp) (a : Int64) (x : BitVec 64), op.onWord? a.toBitVec = some x →
      op.apply s (.int a) = .ok (.int (.ofBitVec x))) ∧
    (∀ a b : Int, b ≠ 0 →
      Integer.divide a b = .ok (a.tdiv b) ∧ Integer.modulo a b = .ok (a.tmod b)) ∧
    (∀ a b : Int64, 64 ≤ b.toInt →
      BinaryOp.shiftLeft.apply s (.int a) (.int b) = .ok (.int 0) ∧
        BinaryOp.shiftRight.apply s (.int a) (.int b) =
          .ok (.int (if a < 0 then -1 else 0))) ∧
    BinaryOp.div.apply s (.int .minValue) (.int (-1)) = .ok (.int .minValue) ∧
    (∀ (op : BinaryOp) (a b : Int64) (c : Bool), op.compares? a.toInt b.toInt = some c →
      op.apply s (.int a) (.int b) = .ok (.bool c)) ∧
    (∀ (op : BinaryOp) (a b : Int64) (kind : FaultKind), (∀ symbol, op ≠ .other symbol) →
      ((∃ f, op.apply s (.int a) (.int b) = .error f ∧ f.kind = kind) ↔
        op.refuses? b.toInt = some kind)) ∧
    ∀ a b : Int64, b ≠ 0 → ∃ q p r : Int64,
      BinaryOp.div.apply s (.int a) (.int b) = .ok (.int q) ∧
      BinaryOp.mul.apply s (.int q) (.int b) = .ok (.int p) ∧
      BinaryOp.mod.apply s (.int a) (.int b) = .ok (.int r) ∧
      BinaryOp.add.apply s (.int p) (.int r) = .ok (.int a) ∧
      r.toInt.natAbs < b.toInt.natAbs ∧ (r = 0 ∨ r.toInt.sign = a.toInt.sign) := by
  -- an operator on two integers is the one on integers, wherever that has an answer
  have own {op : BinaryOp} {a b : Int64} {answer : Except Fault Value}
      (h : op.onIntegers? a b = some answer) : op.apply s (.int a) (.int b) = answer :=
    congrArg (Option.getD · _) h
  have words {op : BinaryOp} {a b : Int64} {x : BitVec 64}
      (hx : op.onWords? a.toBitVec b.toBitVec = some x) (hr : op.refuses? b.toInt = none) :
      op.apply s (.int a) (.int b) = .ok (.int (.ofBitVec x)) :=
    own (BinaryOp.onIntegers?_of_onWords? hx hr)
  refine ⟨fun z k => ⟨fun h => h.unique (Integer.wrapsTo_wrap z), ?_⟩,
    fun z => ⟨_, rfl, Int64.toInt_ofIntLE⟩,
    fun op a b x => words,
    fun op a x hx => UnaryOp.apply_of_onWord? s hx,
    fun a b hb => ⟨Integer.divide_eq hb, Integer.modulo_eq hb⟩,
    fun a b hb => (BinaryOp.shift_past_width hb).imp own own,
    words rfl (by decide),
    fun op a b c hc => own (BinaryOp.onIntegers?_of_compares? hc),
    fun op a b kind hop => ?_,
    fun a b hb => ⟨a / b, a / b * b, a % b, ?_, words rfl rfl, ?_, ?_, natAbs_mod_lt a hb,
      sign_mod a b⟩⟩
  · rintro rfl
    exact Integer.wrapsTo_wrap z
  · obtain ⟨answer, ha, hrefused⟩ := BinaryOp.onIntegers?_refused (a := a) (b := b) hop
    rw [own ha]
    exact hrefused kind
  · exact words rfl (if_neg fun h => hb (Int64.toInt_inj.mp h))
  · exact words rfl (if_neg fun h => hb (Int64.toInt_inj.mp h))
  · have hsum : a / b * b + a % b = a :=
      Int64.toBitVec_inj.mp (BinaryOp.sdiv_mul_add_srem a.toBitVec b.toBitVec)
    refine (words rfl rfl).trans (congrArg (fun n => Except.ok (Value.int n)) ?_)
    exact hsum

/-- The least integer divided by -1 is itself, and is its own opposite. Moved to the right by 70, -7
is -1, and halves of it make it up again. -/
theorem least_integer_and_wide_shift :
    BinaryOp.div.apply .initial (.int .minValue) (.int (-1)) = .ok (.int .minValue) ∧
    UnaryOp.negate.apply .initial (.int .minValue) = .ok (.int .minValue) ∧
    Integer.divide (-7) 2 = .ok (-3) ∧
    BinaryOp.shiftRight.apply .initial (.int (-7)) (.int 70) = .ok (.int (-1)) ∧
    BinaryOp.lt.apply .initial (.int (-1)) (.int 0) = .ok (.bool true) ∧
    (∃ f, BinaryOp.mod.apply .initial (.int 5) (.int 0) = .error f ∧ f.kind = .zeroDivision) ∧
    ∃ p r : Int64, BinaryOp.mod.apply .initial (.int (-7)) (.int 2) = .ok (.int r) ∧
      BinaryOp.add.apply .initial (.int p) (.int r) = .ok (.int (-7)) := by
  obtain ⟨-, -, words, word, whole, shifts, -, comparisons, refusals, division⟩ :=
    integers_are_words .initial
  obtain ⟨q, p, r, -, -, hmod, hadd, -⟩ := division (-7) 2 (by decide)
  exact ⟨words .div .minValue (-1) _ rfl (by decide), word .negate .minValue _ rfl,
    (whole (-7) 2 (by decide)).1, (shifts (-7) 70 (by decide)).2,
    comparisons .lt (-1) 0 true (by decide),
    (refusals .mod 5 0 .zeroDivision (by simp)).mpr (by decide), p, r, hmod, hadd⟩

end Wei
