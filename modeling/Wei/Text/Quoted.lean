import Wei.Numeral
import Wei.Text.Point
import Wei.Text.Printable

/-!
Text between quotes, so that every character can be told: the way a literal is shown in a
description of a tree. Single quotes stand around the text unless it has single quotes and no
double ones. A character that cannot be shown is written by its code point.
-/

namespace Wei.Text

/-- The quote to put around a text. -/
def quoteFor (t : Text) : Char :=
  if t.contains (.char '\'') && !t.contains (.char '"') then '"' else '\''

/-- A character as it is written between quotes. -/
def quotedChar (quote c : Char) : List Char :=
  if c == quote || c == '\\' then ['\\', c]
  else if c == '\n' then ['\\', 'n']
  else if c == '\r' then ['\\', 'r']
  else if c == '\t' then ['\\', 't']
  else if isPrintable c then [c]
  else if c.toNat < 0x100 then ['\\', 'x'] ++ Numeral.hexDigits 2 c.toNat
  else if c.toNat < 0x10000 then ['\\', 'u'] ++ Numeral.hexDigits 4 c.toNat
  else ['\\', 'U'] ++ Numeral.hexDigits 8 c.toNat

/-- A code point as it is written between quotes. -/
def quotedPoint (quote : Char) : Point → List Char
  | .char c => quotedChar quote c
  | p => ['\\', 'u'] ++ Numeral.hexDigits 4 p.code

/-- A text between quotes. -/
def quoted (t : Text) : String :=
  let quote := quoteFor t
  String.ofList (quote :: t.flatMap (quotedPoint quote) ++ [quote])

end Wei.Text
