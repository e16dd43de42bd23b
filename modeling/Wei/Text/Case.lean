import Wei.Text.CasedLetter
import Wei.Text.CaseTable
import Wei.Text.Point

/-!
Text in upper and lower case. A character may become several characters. The capital sigma has
two lower cases: the one that ends a word stands where a cased letter comes before it and none
after it, marks that case rules look through left aside.
-/

namespace Wei.Text

/-- The counterpart of a character by a table of runs and a table of expansions. -/
def counterpart (runs : List CaseRun) (expansions : List (Nat × List Nat)) (c : Char) :
    List Char :=
  match expansions.find? (·.1 == c.toNat) with
  | some (_, points) => points.map Char.ofNat
  | none =>
    match runs.find? (·.covers c.toNat) with
    | some run => [Char.ofNat (Int.ofNat c.toNat + run.distance).toNat]
    | none => [c]

/-- The upper case of a character. -/
def upperChar (c : Char) : List Char := counterpart upperRuns upperExpansions c

/-- The lower case of a character that stands alone. -/
def lowerChar (c : Char) : List Char := counterpart lowerRuns lowerExpansions c

/-- The capital sigma. -/
def capitalSigma : Char := Char.ofNat 0x3a3

/-- The lower case of the capital sigma at the end of a word. -/
def finalSigma : Char := Char.ofNat 0x3c2

/-- The upper case of a code point. -/
def upperPoint : Point → Text
  | .char c => (upperChar c).map .char
  | p => [p]

/-- The lower case of a code point that stands alone. -/
def lowerPoint : Point → Text
  | .char c => (lowerChar c).map .char
  | p => [p]

/-- Is the nearest character that case rules do not look through a cased letter? -/
def nearestIsCased (t : Text) : Bool :=
  match t.dropWhile (·.char?.any isCaseIgnorable) with
  | [] => false
  | p :: _ => p.char?.any isCased

/-- The lower case of `rest`, where `before` came before it, last code point first. -/
def lowerFrom (before : Text) : Text → Text
  | [] => []
  | p :: rest =>
    (if p = .char capitalSigma && nearestIsCased before && !nearestIsCased rest then
        [.char finalSigma]
      else lowerPoint p) ++ lowerFrom (p :: before) rest

/-- A text in upper case. -/
def upper (t : Text) : Text := t.flatMap upperPoint

/-- A text in lower case. -/
def lower (t : Text) : Text := lowerFrom [] t

end Wei.Text
