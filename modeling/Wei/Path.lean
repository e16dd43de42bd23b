import Wei.Crash
import Wei.Text.Field
import Wei.Text.Search

/-!
Paths. A canonical path is absolute and has no empty segment, no `.` and no `..`; there are no
links, so `..` takes back the segment before it, and at the root it does nothing. No path has a
NUL character.
-/

namespace Wei

/-- A canonical path by its segments. -/
structure Path where
  segments : List String
  deriving DecidableEq, Repr, Inhabited

namespace Path

/-- The path as text. -/
def text (p : Path) : String := "/" ++ "/".intercalate p.segments

/-- The path one segment up. -/
def parent (p : Path) : Path := ⟨p.segments.dropLast⟩

/-- The path one segment down. -/
def child (p : Path) (segment : String) : Path := ⟨p.segments ++ [segment]⟩

/-- Follows one part of a written path. -/
def follow (p : Path) (part : String) : Path :=
  if part = "" ∨ part = "." then p
  else if part = ".." then p.parent
  else p.child part

/-- The parts of a written path between the slashes. -/
def parts (raw : String) : List String := (Text.fields '/' raw.toList).map String.ofList

/-- Where a written path starts from: the root if it is absolute, else the working directory. -/
def start (cwd : Path) (raw : String) : Path :=
  if raw.toList.head? = some '/' then ⟨[]⟩ else cwd

/-- Where a written path leads. -/
def reach (cwd : Path) (raw : String) : Path := (parts raw).foldl follow (start cwd raw)

/-- Is there a NUL character in the text? -/
def hasNul (raw : String) : Bool := raw.toList.contains (Char.ofNat 0)

/-- The canonical path for a written one, which must have no NUL character. -/
def resolve (cwd : Path) (raw : String) : Except Crash Path :=
  if hasNul raw then .error .embeddedNul else .ok (reach cwd raw)

/-- What the names of source files end in. -/
def sourceSuffix : String := ".wei"

/-- The name of a source file, with its ending added if it is missing. -/
def sourceName (name : String) : String :=
  if Text.endsWith sourceSuffix.toList name.toList then name else name ++ sourceSuffix

/-- The canonical path of the source file that a script calls by `name`. It does not matter who
asks. -/
def ofModuleName (cwd : Path) (name : String) : Except Crash Path :=
  resolve cwd (sourceName name)

/-- The paths from the root down to this one. -/
def withAncestors (p : Path) : List Path :=
  (List.range (p.segments.length + 1)).map fun n => ⟨p.segments.take n⟩

end Path

end Wei
