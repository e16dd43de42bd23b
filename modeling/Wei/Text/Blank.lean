import Wei.Text.CharRange

/-!
White space, and lines without the white space around them.
-/

namespace Wei.Text

/-- The white space characters; the four information separators are among them. -/
def blankRanges : List CharRange := [
  (0x9, 0xd), (0x1c, 0x20), (0x85, 0x85), (0xa0, 0xa0), (0x1680, 0x1680), (0x2000, 0x200a),
  (0x2028, 0x2029), (0x202f, 0x202f), (0x205f, 0x205f), (0x3000, 0x3000)]

/-- Is the character white space? -/
def isBlank (c : Char) : Bool := CharRange.mem c blankRanges

/-- Drops the characters that satisfy `p` from both ends. -/
def trimBoth {α : Type} (p : α → Bool) (cs : List α) : List α :=
  ((cs.dropWhile p).reverse.dropWhile p).reverse

/-- Drops the white space from both ends. -/
def trimBlank (cs : List Char) : List Char := trimBoth isBlank cs

end Wei.Text
