/-!
Searching, counting and splitting. A search looks at a window of the text, from a start to an
end position. In a window that ends before it starts nothing is found, not even the empty text;
in every other window the empty text is found at the start and at each position up to the end.
-/

namespace Wei.Text

variable {α : Type}

/-- The characters from `start` up to `stop`. -/
def window (cs : List α) (start stop : Nat) : List α := (cs.take stop).drop start

variable [DecidableEq α]

/-- The text without `needle` in front, if it starts with it. -/
def dropNeedle? : List α → List α → Option (List α)
  | [], cs => some cs
  | _ :: _, [] => none
  | n :: needle, c :: cs => if n = c then dropNeedle? needle cs else none

/-- Does the text start with `needle`? -/
def startsWith (needle cs : List α) : Bool := (dropNeedle? needle cs).isSome

/-- Does the text end with `needle`? -/
def endsWith (needle cs : List α) : Bool := startsWith needle.reverse cs.reverse

/-- The first position at which `needle` occurs. -/
def find? (needle : List α) : List α → Option Nat
  | [] => if needle.isEmpty then some 0 else none
  | c :: cs => if startsWith needle (c :: cs) then some 0 else (find? needle cs).map (· + 1)

/-- Cuts the text at the occurrences of `needle`, from the left and without overlaps, at most
`limit` times. The first argument is what has been read since the last cut, last character
first, and `skip` characters of an occurrence are still to be passed. -/
def splitFrom (needle : List α) : List α → Nat → Nat → List α → List (List α)
  | acc, _, _, [] => [acc.reverse]
  | acc, limit, skip + 1, _ :: cs => splitFrom needle acc limit skip cs
  | acc, 0, 0, c :: cs => splitFrom needle (c :: acc) 0 0 cs
  | acc, limit + 1, 0, c :: cs =>
    if startsWith needle (c :: cs) then
      acc.reverse :: splitFrom needle [] limit (needle.length - 1) cs
    else splitFrom needle (c :: acc) (limit + 1) 0 cs

/-- The pieces of the text between the occurrences of a needle that is not empty: at most
`limit` cuts, no bound if it is negative. -/
def split (needle cs : List α) (limit : Int) : List (List α) :=
  splitFrom needle [] (if limit < 0 then cs.length else limit.toNat) 0 cs

/-- How often a needle that is not empty occurs, from the left and without overlaps, when `skip`
characters of an occurrence are still to be passed. -/
def countFrom (needle : List α) : Nat → List α → Nat
  | _, [] => 0
  | skip + 1, _ :: cs => countFrom needle skip cs
  | 0, c :: cs =>
    if startsWith needle (c :: cs) then countFrom needle (needle.length - 1) cs + 1
    else countFrom needle 0 cs

/-- How often `needle` occurs without overlaps. The empty text occurs at every position. -/
def count (needle cs : List α) : Nat :=
  if needle.isEmpty then cs.length + 1 else countFrom needle 0 cs

/-- Does the window start with `needle`? -/
def startsWithIn (needle cs : List α) (start stop : Nat) : Bool :=
  decide (start ≤ stop) && startsWith needle (window cs start stop)

/-- Does the window end with `needle`? -/
def endsWithIn (needle cs : List α) (start stop : Nat) : Bool :=
  decide (start ≤ stop) && endsWith needle (window cs start stop)

/-- The first position of the whole text at which `needle` occurs inside of the window. -/
def findIn? (needle cs : List α) (start stop : Nat) : Option Nat :=
  if start ≤ stop then (find? needle (window cs start stop)).map (· + start) else none

/-- How often `needle` occurs inside of the window, without overlaps. -/
def countIn (needle cs : List α) (start stop : Nat) : Nat :=
  if start ≤ stop then count needle (window cs start stop) else 0

end Wei.Text
