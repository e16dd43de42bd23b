/-!
Fractions of natural numbers, and how they lie between the powers of a base. Nothing is rounded
but where a name says so.
-/

namespace Wei

/-- A numerator over a denominator, which is not zero. -/
structure Fraction where
  num : Nat
  den : Nat
  deriving DecidableEq, Repr, Inhabited

namespace Fraction

/-- The number `n * base ^ k`. -/
def scaled (n base : Nat) (k : Int) : Fraction :=
  ⟨n * base.pow k.toNat, base.pow (-k).toNat⟩

/-- The fraction in units of `base ^ k`. -/
def inUnits (f : Fraction) (base : Nat) (k : Int) : Fraction :=
  ⟨f.num * base.pow (-k).toNat, f.den * base.pow k.toNat⟩

/-- The whole part. -/
def floor (f : Fraction) : Nat := f.num / f.den

/-- The nearest natural number; of two that are equally near, the even one. -/
def nearest (f : Fraction) : Nat :=
  let rest := 2 * (f.num % f.den)
  if rest < f.den ∨ (rest = f.den ∧ f.floor % 2 = 0) then f.floor else f.floor + 1

/-- How many digits a number has in a base. -/
def digitCount (base n : Nat) : Nat := (Nat.toDigits base n).length

/-- The greatest `k` such that `base ^ k` is not above a fraction that is not zero. The numbers
of digits leave only two candidates. -/
def log (f : Fraction) (base : Nat) : Int :=
  let k : Int := (digitCount base f.num : Int) - digitCount base f.den
  let unit := f.inUnits base k
  if unit.den ≤ unit.num then k else k - 1

end Fraction

end Wei
