import Wei.FileTree
import Wei.Report

/-!
Tracebacks. Each frame is shown with the line of source on which it stood. The texts of the last
five files asked for are remembered as they were at the first look-up, also that a file could
not be read; a file that is no text is not remembered.
-/

namespace Wei

/-- The files that were looked at last, the latest first. -/
structure SourceMemory where
  recent : List (String × Option String)
  deriving Inhabited

namespace SourceMemory

/-- Nothing has been looked at. -/
def empty : SourceMemory := ⟨[]⟩

/-- How many files are remembered. -/
def capacity : Nat := 5

/-- Puts a file in front, and forgets the one that nobody asked for the longest. -/
def remember (m : SourceMemory) (path : String) (text : Option String) : SourceMemory :=
  ⟨((path, text) :: m.recent.filter (·.1 ≠ path)).take capacity⟩

end SourceMemory

/-- How a host finds a line of a text by its number, counted from one; none if there is no such
line. -/
abbrev LineReader := String → Nat → Option String

/-- A look at source files, which may crash on a file that is no text. -/
abbrev SourceM := EStateM Crash SourceMemory

namespace SourceM

/-- The text of a file, from memory if it is there; none if it cannot be read. -/
def fetch (files : FileTree) (path : String) : SourceM (Option String) :=
  fun m =>
    match OrderedMap.lookup path m.recent with
    | some text => .ok text (m.remember path text)
    | none =>
      match files.readText path with
      | .error crash => .error crash m
      | .ok (.error _) => .ok none (m.remember path none)
      | .ok (.ok text) => .ok (some text) (m.remember path (some text))

variable (reader : LineReader)

/-- A line of a source file, without the white space around it. -/
def sourceLine (files : FileTree) (path : String) (line : Int) : SourceM String := do
  if line < 1 then pure ""
  else
    match ← fetch files path with
    | none => pure ""
    | some text => pure (Text.stripped ((reader text line.toNat).getD ""))

/-- The lines of a traceback that show the frames. -/
def frameLines (files : FileTree) : List Frame → SourceM (List String)
  | [] => pure []
  | f :: rest => do
    let place := "  File \"" ++ f.path ++ "\", line " ++ Numeral.decimal f.line ++ ", in "
      ++ f.function
    let text ← sourceLine reader files f.path f.line
    let quote := if text.isEmpty then [] else ["    " ++ text]
    return place :: quote ++ (← frameLines files rest)

/-- The traceback of a report, which must have a fault. -/
def traceback (files : FileTree) (r : Report) : SourceM String := do
  match r.fault with
  | none => throw .noFault
  | some fault =>
    let frames ← frameLines reader files r.frames
    pure ("\n".intercalate (["Traceback (most recent call last):"] ++ frames ++ [fault.render]))

end SourceM

end Wei
