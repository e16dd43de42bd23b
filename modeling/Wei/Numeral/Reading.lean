import Wei.Text.Blank
import Wei.Text.DecimalDigit

/-!
Numerals that are read from text. White space around a numeral does not count, the digits may be
those of any script, and an underscore may stand between two digits.
-/

namespace Wei.Numeral

/-- White space that may stand around a numeral: all but the information separators. -/
def isPadding (c : Char) : Bool :=
  Text.isBlank c && !(0x1c ≤ c.toNat && c.toNat ≤ 0x1f)

/-- Leaves out the underscores. Each must stand between two digits; `afterDigit` says what came
before. -/
def withoutUnderscores (afterDigit : Bool) : List Char → Option (List Char)
  | [] => some []
  | c :: rest =>
    if c = '_' then
      if afterDigit && rest.head?.any Char.isDigit then withoutUnderscores false rest else none
    else (withoutUnderscores c.isDigit rest).map (c :: ·)

/-- The characters of a numeral: no padding, ASCII digits, no underscores. -/
def characters (text : String) : Option (List Char) :=
  withoutUnderscores false ((Text.trimBoth isPadding text.toList).map Text.asciiDigit)

/-- Takes off a sign. The first component says whether it is a minus. -/
def takeSign : List Char → Bool × List Char
  | [] => (false, [])
  | c :: rest =>
    if c = '-' then (true, rest) else if c = '+' then (false, rest) else (false, c :: rest)

/-- The number that ASCII digits stand for. -/
def ofDigits (cs : List Char) : Nat := cs.foldl (fun n c => 10 * n + (c.toNat - '0'.toNat)) 0

/-- Are these digits, and at least one? -/
def isDigits (cs : List Char) : Bool := !cs.isEmpty && cs.all Char.isDigit

/-- An integer with a sign. -/
def signedInt (negative : Bool) (n : Nat) : Int := if negative then -(n : Int) else n

/-- How many digits the numeral of an integer may have. -/
def maxDigits : Nat := 4300

/-- Reads an integer. -/
def readInt? (text : String) : Option Int := do
  let (negative, digits) := takeSign (← characters text)
  if isDigits digits && digits.length ≤ maxDigits then some (signedInt negative (ofDigits digits))
  else none

end Wei.Numeral
