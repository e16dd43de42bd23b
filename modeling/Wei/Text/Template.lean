import Wei.Text.Point

/-!
Templates: text with holes. A hole is an empty pair of braces, a doubled brace stands for the
brace itself, and a brace that stands alone is refused.
-/

namespace Wei.Text

/-- A part of a template. -/
inductive Piece where
  | point (p : Point)
  | hole
  deriving DecidableEq, Repr

/-- The parts of a template, or else the first brace that stands alone. -/
def template? : Text → Except Char (List Piece)
  | [] => .ok []
  | .char '\x7b' :: .char '\x7b' :: rest => (template? rest).map (.point (.char '\x7b') :: ·)
  | .char '\x7b' :: .char '\x7d' :: rest => (template? rest).map (.hole :: ·)
  | .char '\x7b' :: _ => .error '\x7b'
  | .char '\x7d' :: .char '\x7d' :: rest => (template? rest).map (.point (.char '\x7d') :: ·)
  | .char '\x7d' :: _ => .error '\x7d'
  | p :: rest => (template? rest).map (.point p :: ·)

/-- How many holes there are. -/
def holes (pieces : List Piece) : Nat := pieces.count .hole

/-- Puts texts into the holes, from the left. A hole for which there is no text stays empty. -/
def fill : List Piece → List Text → Text
  | [], _ => []
  | .point p :: rest, texts => p :: fill rest texts
  | .hole :: rest, text :: texts => text ++ fill rest texts
  | .hole :: rest, [] => fill rest []

end Wei.Text
