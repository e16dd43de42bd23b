import Wei.Crash
import Wei.Numeral

/-!
The call stack, kept for diagnostics only: which file, which function, which line. Bindings live
in scopes and not here.
-/

namespace Wei

/-- An activation of a function or of the text of a module. -/
structure Frame where
  path : String
  function : String
  line : Int
  deriving DecidableEq, Repr, Inhabited

/-- A description of a frame for the host. -/
def Frame.display (f : Frame) : String :=
  "<Frame " ++ f.path ++ ":" ++ Numeral.decimal f.line ++ " in " ++ f.function ++ ">"

/-- The active frames, innermost first. -/
structure CallStack where
  frames : List Frame
  deriving DecidableEq, Repr, Inhabited

namespace CallStack

/-- Nothing is active. -/
def empty : CallStack := ⟨[]⟩

/-- How many frames are active. -/
def depth (s : CallStack) : Nat := s.frames.length

/-- A new innermost frame, whose line nobody has said yet. -/
def push (s : CallStack) (path function : String) : CallStack :=
  ⟨⟨path, function, 0⟩ :: s.frames⟩

/-- Takes off the innermost frame. -/
def pop (s : CallStack) : CallStack := ⟨s.frames.tail⟩

/-- The innermost frame. -/
def top? (s : CallStack) : Option Frame := s.frames.head?

/-- Says on which line the innermost frame is. -/
def setLine (s : CallStack) (line : Int) : CallStack :=
  match s.frames with
  | [] => s
  | f :: rest => ⟨{ f with line := line } :: rest⟩

/-- Takes off the innermost frame, which must be there, and answers it. -/
def take (s : CallStack) : Except Crash (Frame × CallStack) :=
  match s.top? with
  | some f => .ok (f, s.pop)
  | none => .error .emptyStack

/-- Says on which line the innermost frame is, which must be there. -/
def moveTo (s : CallStack) (line : Int) : Except Crash CallStack :=
  match s.top? with
  | some _ => .ok (s.setLine line)
  | none => .error .noFrame

/-- The frames as they are now, outermost first. -/
def snapshot (s : CallStack) : List Frame := s.frames.reverse

end CallStack

end Wei
