import Wei.Binary64
import Wei.Numeral.Reading

/-!
Numbers of the 64-bit format that are read from text: a decimal with a point or an exponent or
neither, or a word for what is not finite.
-/

namespace Wei.Binary64

/-- Reads what follows the digits of a decimal: nothing, or a mark and an exponent. -/
def exponent? : List Char → Option Int
  | [] => some 0
  | c :: rest =>
    let (negative, digits) := Numeral.takeSign rest
    if (c = 'e' ∨ c = 'E') ∧ Numeral.isDigits digits then
      some (Numeral.signedInt negative (Numeral.ofDigits digits))
    else none

/-- Cuts off the digits behind a point, if there is a point. -/
def takePlaces : List Char → List Char × List Char
  | [] => ([], [])
  | c :: rest => if c = '.' then rest.span Char.isDigit else ([], c :: rest)

/-- Reads a decimal without a sign. There is a digit on one side of the point at least. -/
def decimal? (cs : List Char) : Option Decimal := do
  let (whole, rest) := cs.span Char.isDigit
  let (places, rest) := takePlaces rest
  let exponent ← exponent? rest
  if whole.isEmpty && places.isEmpty then none
  else some ⟨Numeral.ofDigits (whole ++ places), exponent - places.length⟩

/-- Reads a number. Words may be in capitals. -/
def read? (text : String) : Option Binary64 := do
  let (negative, cs) := Numeral.takeSign (← Numeral.characters text)
  let word := String.ofList (cs.map Char.toLower)
  if word = "inf" ∨ word = "infinity" then some (.infinite negative)
  else if word = "nan" then some .nan
  else (decimal? cs).map (ofDecimal negative)

end Wei.Binary64
