/-!
Sets of characters as lists of ranges of code points.
-/

namespace Wei.Text

/-- A range of code points, both ends included. -/
abbrev CharRange := Nat × Nat

/-- Does one of the ranges hold the character? -/
def CharRange.mem (c : Char) (ranges : List CharRange) : Bool :=
  ranges.any fun r => r.1 ≤ c.toNat && c.toNat ≤ r.2

end Wei.Text
