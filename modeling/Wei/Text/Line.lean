import Wei.Text.Blank
import Wei.Text.Field

/-!
Text in lines. Reading a text file turns every line end, be it a line feed, a carriage return or
both, into a line feed.
-/

namespace Wei.Text

/-- Every line end becomes a line feed. -/
def normalizeLineEnds : List Char → List Char
  | [] => []
  | '\r' :: '\n' :: rest => '\n' :: normalizeLineEnds rest
  | '\r' :: rest => '\n' :: normalizeLineEnds rest
  | c :: rest => c :: normalizeLineEnds rest

/-- The lines of a text whose line ends are line feeds, without these. What follows the last line
feed is a line too. -/
def lines (cs : List Char) : List (List Char) := fields '\n' cs

/-- Line `n` of a text whose line ends are line feeds, counted from one; none beyond the end. -/
def line? (text : String) (n : Nat) : Option String :=
  ((lines text.toList)[n - 1]?).map String.ofList

/-- A text without the white space around it. -/
def stripped (text : String) : String := String.ofList (trimBlank text.toList)

end Wei.Text
