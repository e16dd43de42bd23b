/-!
Integers as text: in decimal, and with a mark for the radix in front of the digits. A sign goes
before the mark.
-/

namespace Wei

/-- The radices that have a mark. -/
inductive Radix where
  | binary | octal | hexadecimal
  deriving DecidableEq, Repr, Inhabited

/-- How many digits a radix has. -/
def Radix.base : Radix → Nat
  | .binary => 2
  | .octal => 8
  | .hexadecimal => 16

/-- What is written in front of the digits. -/
def Radix.mark : Radix → String
  | .binary => "0b"
  | .octal => "0o"
  | .hexadecimal => "0x"

namespace Numeral

/-- An integer with a sign if it is negative, then a mark, then its digits. -/
def signed (mark : String) (base : Nat) (n : Int) : String :=
  (if n < 0 then "-" else "") ++ mark ++ String.ofList (Nat.toDigits base n.natAbs)

/-- The decimal text of an integer. -/
def decimal (n : Int) : String := signed "" 10 n

/-- The text of an integer in a radix, with the mark of the radix. -/
def marked (r : Radix) (n : Int) : String := signed r.mark r.base n

/-- The lower-case hexadecimal digits of a number, at least `width` of them. -/
def hexDigits (width n : Nat) : List Char :=
  let digits := Nat.toDigits 16 n
  List.replicate (width - digits.length) '0' ++ digits

end Numeral

end Wei
