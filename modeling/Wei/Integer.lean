import Wei.Fault
import Wei.Value

/-!
Arithmetic. Integers are computed as if they had room without end, and what comes out is brought
back into the range of 64 bits with a sign.
-/

namespace Wei

namespace Integer

/-! ### Bits

An integer has bits without end. From some place on, those of a negative one are all set.
-/

/-- The bits that two integers have in common. -/
def land : Int → Int → Int
  | .ofNat m, .ofNat n => .ofNat (m &&& n)
  | .ofNat m, .negSucc n => .ofNat (m ^^^ (m &&& n))
  | .negSucc m, .ofNat n => .ofNat (n ^^^ (n &&& m))
  | .negSucc m, .negSucc n => .negSucc (m ||| n)

/-- The bits that one of two integers has, or both. -/
def lor (a b : Int) : Int := ~~~land (~~~a) (~~~b)

/-- The bits in which two integers differ. -/
def xor : Int → Int → Int
  | .ofNat m, .ofNat n => .ofNat (m ^^^ n)
  | .ofNat m, .negSucc n => .negSucc (m ^^^ n)
  | .negSucc m, .ofNat n => .negSucc (m ^^^ n)
  | .negSucc m, .negSucc n => .ofNat (m ^^^ n)

/-! ### The range of 64 bits -/

/-- All of the lowest 64 bits. -/
def mask : Nat := 0xffffffffffffffff

/-- The highest of the lowest 64 bits. -/
def signBit : Int := 0x8000000000000000

/-- Wraps an integer around into the range of 64 bits with a sign. -/
def wrap (n : Int) : Int := land (n + signBit) mask - signBit

/-- What is left under the mask is no more than the mask. -/
theorem land_mask_bounds (n : Int) : 0 ≤ land n mask ∧ land n mask ≤ mask := by
  cases n with
  | ofNat m =>
    exact ⟨Int.natCast_nonneg _, Int.ofNat_le.mpr Nat.and_le_right⟩
  | negSucc m =>
    have hlt : mask ^^^ (mask &&& m) < Nat.pow 2 64 :=
      Nat.xor_lt_two_pow (by decide) (Nat.lt_of_le_of_lt Nat.and_le_left (by decide))
    exact ⟨Int.natCast_nonneg _, Int.ofNat_le.mpr (Nat.le_of_lt_succ hlt)⟩

theorem least_le_wrap (n : Int) : Int64.minValue.toInt ≤ wrap n := by
  have h := (land_mask_bounds (n + signBit)).1
  have : Int64.minValue.toInt = -signBit := by decide
  unfold wrap
  omega

theorem wrap_le_greatest (n : Int) : wrap n ≤ Int64.maxValue.toInt := by
  have h := (land_mask_bounds (n + signBit)).2
  have : Int64.maxValue.toInt = mask - signBit := by decide
  unfold wrap
  omega

/-! ### Operations that may fail, or that go by the signs -/

/-- Division toward zero. -/
def divide (a b : Int) : Except Fault Int :=
  if b = 0 then .error .divisionByZero
  else
    let q := Int.fdiv a.natAbs b.natAbs
    .ok (if decide (a < 0) = decide (b < 0) then q else -q)

/-- The remainder, which takes the sign of the dividend. -/
def modulo (a b : Int) : Except Fault Int :=
  if b = 0 then .error .moduloByZero
  else
    let r := Int.fmod a.natAbs b.natAbs
    .ok (if a < 0 then -r else r)

/-- Moves bits up. From 64 places on, none is left in range. -/
def shiftLeft (a b : Int) : Except Fault Int :=
  if b < 0 then .error .negativeShift else .ok (if b < 64 then Int.shiftLeft a b.toNat else 0)

/-- Moves bits down. From 63 places on, nothing is left but the sign. -/
def shiftRight (a b : Int) : Except Fault Int :=
  if b < 0 then .error .negativeShift else .ok (Int.shiftRight a (min b 63).toNat)

end Integer

/-- An integer as a value. -/
def Value.integer (n : Int) : Value :=
  .int (.ofIntLE (Integer.wrap n) (Integer.least_le_wrap n) (Integer.wrap_le_greatest n))

end Wei
