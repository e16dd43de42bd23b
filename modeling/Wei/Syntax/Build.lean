import Wei.Binary64.Reading
import Wei.Crash
import Wei.Syntax.Operator

/-!
Trees put together with the checks that the grammar asks for: a branch statement has a branch, a
loop over a subject has a target, a definition has a name, a number can be read, and only `and`
and `or` cut short.
-/

namespace Wei.Build

/-- An integer by its numeral. -/
def integer (text : String) : Except Crash Int :=
  match Numeral.readInt? text with
  | some n => .ok n
  | none => .error .malformedNumeral

/-- The literal of an integer by its numeral. -/
def intLiteral (text : String) : Except Crash Literal := (integer text).map .int

/-- The literal of a number with a fractional part by its numeral. -/
def floatLiteral (text : String) : Except Crash Literal :=
  match Binary64.read? text with
  | some x => .ok (.float x)
  | none => .error .malformedNumeral

/-- A branch statement with at least one branch. -/
def branch (branches : List (Expr × List Stmt)) (otherwise : Option (List Stmt)) :
    Except Crash Action :=
  if branches.isEmpty then .error .malformedTree else .ok (.branch branches otherwise)

/-- A loop over a subject, with at least one target. -/
def each (targets : List String) (subject : Expr) (body : List Stmt) (constant : Bool) :
    Except Crash Action :=
  if targets.isEmpty then .error .malformedTree else .ok (.each targets subject body constant)

/-- The definition of a function that has a name. -/
def define (name : String) (params : List String) (body : List Stmt) : Except Crash Action :=
  if name.isEmpty then .error .malformedTree else .ok (.define (.mk (some name) params body))

/-- The definition of a method that has a name. -/
def method (name : String) (params : List String) (body : List Stmt) (classLevel : Bool) :
    Except Crash Action :=
  if name.isEmpty then .error .malformedTree
  else .ok (.method (.mk (some name) params body) classLevel)

/-- A short-circuit operator by its spelling. -/
def shortCircuit (symbol : String) (lhs rhs : Expr) : Except Crash Expr :=
  match ShortCircuit.ofSymbol? symbol with
  | some op => .ok (.shortCircuit op lhs rhs)
  | none => .error .malformedTree

/-- A node as the target of an assignment: names, items and attributes are places. No statement
is one, but a loop has a subject. The address of the node is the host's. -/
def target (address : Nat) : Node → Target
  | .expr (.name x) => .name x
  | .expr (.item subject index) => .item subject index
  | .expr (.attr subject name) => .attr subject name
  | .stmt (.mk _ (.each _ subject _ _)) => .loop subject address
  | _ => .invalid

/-- A program from its top-level statements and the lines on which they begin. A statement whose
line nobody said begins on the line of its position, counted from one. -/
def program (body : List (Option Int × Action)) : Program :=
  ⟨body.zipIdx.map fun e => .mk (e.1.1.getD (Int.ofNat (e.2 + 1))) e.1.2⟩

end Wei.Build
