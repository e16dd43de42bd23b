/-!
Text cut at every occurrence of one character.
-/

namespace Wei.Text

/-- The pieces of a text between the occurrences of `mark`. There is always one more piece than
there are marks. -/
def fields (mark : Char) : List Char → List (List Char)
  | [] => [[]]
  | c :: rest =>
    if c = mark then [] :: fields mark rest
    else
      match fields mark rest with
      | [] => [[c]]
      | field :: more => (c :: field) :: more

end Wei.Text
