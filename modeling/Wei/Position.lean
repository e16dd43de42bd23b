/-!
Positions in a sequence. A negative position counts from the end.
-/

namespace Wei.Position

/-- The position as counted from the front. -/
def fromFront (i n : Int) : Int := if i < 0 then i + n else i

/-- Clamps a position in a sequence of length `n` to `0 ≤ i ≤ n`. -/
def clamp (i n : Int) : Int := min (max (fromFront i n) 0) n

/-- The place of an element in a sequence of length `n`, if there is one at position `i`. -/
def index? (i : Int) (n : Nat) : Option Nat :=
  if 0 ≤ fromFront i n ∧ fromFront i n < n then some (fromFront i n).toNat else none

/-- A clamped position stands before an element or at the end. -/
theorem clamp_mem (i : Int) (n : Nat) : 0 ≤ clamp i n ∧ clamp i n ≤ n := by
  unfold clamp
  omega

end Wei.Position
