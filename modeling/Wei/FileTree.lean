import Wei.Crash
import Wei.OrderedMap
import Wei.Path
import Wei.Text.Line

/-!
The files that the host can read. Reading walks a written path step by step, so every folder on
the way must be there, also one that `..` leaves again.
-/

namespace Wei

/-- What is at a path. -/
inductive FileEntry where
  | directory
  | file (bytes : ByteArray)

/-- Files and directories, and the working directory. -/
structure FileTree where
  cwd : Path
  entries : OrderedMap Path FileEntry

/-- Why a file could not be opened. -/
inductive Refusal where
  | notFound | isDirectory | notDirectory
  deriving DecidableEq, Repr

/-- The reason in words. -/
def Refusal.reason : Refusal → String
  | .notFound => "No such file or directory"
  | .isDirectory => "Is a directory"
  | .notDirectory => "Not a directory"

namespace FileTree

/-- Makes directories, where there is nothing yet. -/
def addDirectories (t : FileTree) (paths : List Path) : FileTree :=
  paths.foldl (fun t p =>
    if t.entries.contains p then t else { t with entries := t.entries.insert p .directory }) t

/-- Only the working directory and the directories above it. -/
def empty (cwd : Path) : FileTree := addDirectories ⟨cwd, .empty⟩ cwd.withAncestors

/-- Puts something at a written path, with the directories above it. -/
def write (t : FileTree) (raw : String) (entry : FileEntry) : FileTree :=
  let p := Path.reach t.cwd raw
  let t := t.addDirectories p.parent.withAncestors
  { t with entries := t.entries.insert p entry }

/-- Takes away what is at a written path. -/
def delete (t : FileTree) (raw : String) : FileTree :=
  let p := Path.reach t.cwd raw
  { t with entries := t.entries.filter (·.1 ≠ p) }

/-- Is there a file at the path? -/
def isFile (t : FileTree) (p : Path) : Bool :=
  match t.entries.find? p with
  | some (.file _) => true
  | _ => false

/-- Follows the parts of a written path from `p`. -/
def walk (t : FileTree) : Path → List String → Except Refusal Path
  | p, [] => .ok p
  | p, part :: rest =>
    match t.entries.find? p with
    | none => .error .notFound
    | some (.file _) => .error .notDirectory
    | some .directory => t.walk (p.follow part) rest

/-- The bytes of the file at a written path. -/
def bytes (t : FileTree) (raw : String) : Except Refusal ByteArray := do
  if raw.isEmpty then .error .notFound
  else
    match t.entries.find? (← t.walk (Path.start t.cwd raw) (Path.parts raw)) with
    | none => .error .notFound
    | some .directory => .error .isDirectory
    | some (.file bytes) => .ok bytes

/-- The text of the file at a written path: its bytes read as UTF-8, with line feeds as line
ends. The inner error is a refusal to open the file. -/
def readText (t : FileTree) (raw : String) : Except Crash (Except Refusal String) :=
  if Path.hasNul raw then .error .embeddedNul
  else
    match t.bytes raw with
    | .error refusal => .ok (.error refusal)
    | .ok bytes =>
      match String.fromUTF8? bytes with
      | none => .error .undecodable
      | some text => .ok (.ok (String.ofList (Text.normalizeLineEnds text.toList)))

end FileTree

end Wei
