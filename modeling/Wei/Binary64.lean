import Wei.Fraction

/-!
The numbers of the 64-bit binary format. A finite one is a significand of at most 53 bits times a
power of two. All arithmetic here is on natural numbers and exact; a number that the format does
not have goes to the nearest one that it has, and if there are two to the one whose significand is
even.
-/

namespace Wei

/-- A number of the 64-bit binary format. -/
inductive Binary64 where
  /-- The number `significand * 2 ^ exponent`, with a sign. -/
  | finite (negative : Bool) (significand : Nat) (exponent : Int)
  | infinite (negative : Bool)
  /-- No number. -/
  | nan
  deriving DecidableEq, Repr, Inhabited

/-- The number `digits * 10 ^ exponent`. -/
structure Decimal where
  digits : Nat
  exponent : Int
  deriving DecidableEq, Repr, Inhabited

namespace Binary64

/-- How many bits a significand has. -/
def precision : Nat := 53

/-- The exponent of the smallest numbers. -/
def minExponent : Int := -1074

/-- The exponent of the largest numbers. -/
def maxExponent : Int := 971

/-- Zero, with a sign. -/
def zero (negative : Bool) : Binary64 := .finite negative 0 minExponent

/-- The number nearest to a fraction. -/
def ofFraction (negative : Bool) (f : Fraction) : Binary64 :=
  if f.num = 0 then zero negative
  else
    let exponent := max minExponent (f.log 2 + 1 - precision)
    let significand := (f.inUnits 2 exponent).nearest
    -- Rounding up may take one bit more.
    let carried : Nat × Int :=
      if significand = Nat.pow 2 precision then (Nat.pow 2 (precision - 1), exponent + 1)
      else (significand, exponent)
    if maxExponent < carried.2 then .infinite negative
    else .finite negative carried.1 carried.2

/-- The number nearest to a decimal. A decimal far outside of the range of the format is not
written out: everything from `10 ^ 310` on is infinite, and below `10 ^ -324` there is nothing but
zero. -/
def ofDecimal (negative : Bool) (d : Decimal) : Binary64 :=
  let top := (Fraction.digitCount 10 d.digits : Int) + d.exponent
  if d.digits = 0 ∨ top ≤ -324 then zero negative
  else if 310 < top then .infinite negative
  else ofFraction negative (.scaled d.digits 10 d.exponent)

end Binary64

end Wei
