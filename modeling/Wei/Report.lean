import Wei.CallStack
import Wei.Fault

/-!
The report of an evaluation. It keeps the first fault with the call stack as it stood when the
fault appeared; what comes later is the same fault on its way up, and changes nothing.
-/

namespace Wei

/-- The first fault, if there is one, and the call stack at that time, outermost frame first. A
verbose report tells of each file that is loaded. -/
structure Report where
  verbose : Bool
  fault : Option Fault
  frames : List Frame
  deriving DecidableEq, Repr, Inhabited

namespace Report

/-- A report of nothing. -/
def blank (verbose : Bool) : Report := ⟨verbose, none, []⟩

/-- Forgets the fault. -/
def reset (r : Report) : Report := blank r.verbose

/-- Has there been no fault? -/
def ok (r : Report) : Bool := r.fault.isNone

/-- Keeps a fault and the call stack, unless there is a fault already. -/
def record (r : Report) (f : Fault) (frames : List Frame) : Report :=
  match r.fault with
  | none => { r with fault := some f, frames := frames }
  | some _ => r

theorem verbose_record (r : Report) (f : Fault) (frames : List Frame) :
    (r.record f frames).verbose = r.verbose := by
  unfold record
  split <;> rfl

/-- What is told to the console when something happens: words in a line of their own. -/
def info (r : Report) (words : List String) : String :=
  if r.verbose then " ".intercalate words ++ "\n" else ""

end Report

end Wei
