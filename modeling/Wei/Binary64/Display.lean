import Wei.Binary64

/-!
Numbers of the 64-bit format as text: the fewest digits that read back, of those the nearest, with
a point if the number is neither very small nor very large, else with an exponent.
-/

namespace Wei.Binary64

/-- The two multiples of `10 ^ k` around a fraction, the nearer one first. -/
def neighbours (f : Fraction) (k : Int) : List Decimal :=
  let unit := f.inUnits 10 k
  let other := if unit.nearest = unit.floor then unit.floor + 1 else unit.floor
  [⟨unit.nearest, k⟩, ⟨other, k⟩]

/-- How many digits tell all numbers of the format apart. -/
def enoughDigits : Nat := 17

/-- The shortest decimal that reads back as `significand * 2 ^ exponent`, which is not zero. If
any decimal of some length reads back, then one of the two around the number does. -/
def shortest (significand : Nat) (exponent : Int) : Decimal :=
  let f := Fraction.scaled significand 2 exponent
  let places := (List.range enoughDigits).map fun (i : Nat) => f.log 10 - i
  let candidates := places.flatMap (neighbours f)
  let readsBack (d : Decimal) : Bool := ofDecimal false d = .finite false significand exponent
  (candidates.find? readsBack).getD (candidates.getLastD ⟨significand, 0⟩)

/-- Digits with a point after the first `point` of them. There is a digit on both sides. -/
def positional (digits : List Char) (point : Int) : List Char :=
  let whole := digits.take point.toNat
  let places := digits.drop point.toNat
  let padded := whole ++ List.replicate (point.toNat - digits.length) '0'
  (if padded.isEmpty then ['0'] else padded) ++ '.' :: List.replicate (-point).toNat '0' ++
    (if places.isEmpty then ['0'] else places)

/-- Digits with a point after the first one if there are more, and an exponent of at least two
digits with a sign. -/
def scientific (digits : List Char) (exponent : Int) : List Char :=
  let places := digits.drop 1
  let size := Nat.toDigits 10 exponent.natAbs
  digits.take 1 ++ (if places.isEmpty then [] else '.' :: places) ++
    ['e', if exponent < 0 then '-' else '+'] ++ List.replicate (2 - size.length) '0' ++ size

/-- A decimal that is not zero. Numbers from `10 ^ -4` on and below `10 ^ 16` have no exponent. -/
def decimalText (d : Decimal) : List Char :=
  let written := Nat.toDigits 10 d.digits
  let point : Int := written.length + d.exponent
  let digits := (written.reverse.dropWhile (· = '0')).reverse
  if -4 < point ∧ point ≤ 16 then positional digits point else scientific digits (point - 1)

/-- What is in front of a number. -/
def sign (negative : Bool) : String := if negative then "-" else ""

/-- How a number shows. -/
def display : Binary64 → String
  | .finite negative significand exponent =>
    sign negative ++ String.ofList
      (if significand = 0 then positional ['0'] 1 else decimalText (shortest significand exponent))
  | .infinite negative => sign negative ++ "inf"
  | .nan => "nan"

end Wei.Binary64
