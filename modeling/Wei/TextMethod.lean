import Wei.Argument
import Wei.Position
import Wei.Text.Blank
import Wei.Text.Case
import Wei.Text.Search
import Wei.Text.Template

/-!
The methods of strings. Positions count code points; those of a window are clamped to the text.
-/

namespace Wei.TextMethod

/-- What the searching methods are given: a needle, and a window of the text. -/
structure Window where
  needle : Text
  start : Nat
  stop : Nat

/-- Reads a needle and the two ends of a window. -/
def window (s : Store) (this : Text) (args : List Value) : Except Fault Window := do
  Argument.between 1 3 args
  let needle ← Argument.text? s args 0
  let start ← Argument.int? s args 1
  let stop ← Argument.int? s args 2
  let clamp (i : Int) : Nat := (Position.clamp i this.length).toNat
  pure ⟨needle.getD [], (start.map clamp).getD 0, (stop.map clamp).getD this.length⟩

/-- The position that a search answers, one before the first if there is none. -/
def foundAt : Option Nat → Value
  | some i => .int (Int64.ofNat i)
  | none => .int (-1)

/-- Puts the texts of values into the holes of a template. -/
def filled (s : Store) (this : Text) (args : List Value) : Except Fault Value :=
  match Text.template? this with
  | .error brace => .error (.loneBrace brace)
  | .ok pieces =>
    if args.length = Text.holes pieces then
      .ok (.str (Text.fill pieces (args.map s.render)))
    else .error (.wrongArity args.length (Text.holes pieces))

/-- The pieces of a text between separators. -/
def pieces (s : Store) (this : Text) (args : List Value) : Except Fault (List Value) := do
  Argument.between 1 2 args
  let separator := (← Argument.text? s args 0).getD []
  let limit := (← Argument.int? s args 1).getD (-1)
  if separator.isEmpty then .error .emptySeparator
  else .ok ((Text.split separator this limit).map .str)

/-- What a method answers: a value, or the elements of a new list. -/
inductive Answer where
  | value (v : Value)
  | list (elements : List Value)

/-- What a method of a string answers. -/
def answer (s : Store) (this : Text) (args : List Value) : TextMethod → Except Fault Answer
  | .count => do
    let w ← window s this args
    pure (.value (.int (Int64.ofNat (Text.countIn w.needle this w.start w.stop))))
  | .endswith => do
    let w ← window s this args
    pure (.value (.bool (Text.endsWithIn w.needle this w.start w.stop)))
  | .find => do
    let w ← window s this args
    pure (.value (foundAt (Text.findIn? w.needle this w.start w.stop)))
  | .format => do
    pure (.value (← filled s this args))
  | .join => do
    let r ← Argument.onlyList s args
    pure (.value (.str (List.intercalate this ((s.list r).map s.render))))
  | .lower => do
    Argument.exactly 0 args
    pure (.value (.str (Text.lower this)))
  | .split => do
    pure (.list (← pieces s this args))
  | .startswith => do
    let w ← window s this args
    pure (.value (.bool (Text.startsWithIn w.needle this w.start w.stop)))
  | .strip => do
    let chars ← Argument.onlyText s args
    pure (.value (.str (Text.trimBoth chars.contains this)))
  | .upper => do
    Argument.exactly 0 args
    pure (.value (.str (Text.upper this)))

/-- Calls a method of a string. -/
def call (m : TextMethod) (this : Text) (args : List Value) : StoreM Value := do
  match answer (← get) this args m with
  | .error f => throw f
  | .ok (.value v) => pure v
  | .ok (.list elements) => return .list (← StoreM.newList elements)

/-! ### What a call comes to -/

variable {s : Store} {m : TextMethod} {this : Text} {args : List Value}

theorem call_of_error {f : Fault} (h : answer s this args m = .error f) :
    call m this args s = .error f s := by
  unfold call
  show EStateM.bind (fun s => .ok s s) _ s = _
  simp only [EStateM.bind, h]
  rfl

theorem call_of_value {v : Value} (h : answer s this args m = .ok (.value v)) :
    call m this args s = .ok v s := by
  unfold call
  show EStateM.bind (fun s => .ok s s) _ s = _
  simp only [EStateM.bind, h]
  rfl

theorem call_of_list {elements : List Value} (h : answer s this args m = .ok (.list elements)) :
    call m this args s = .ok (.list ⟨s.lists.size⟩) { s with lists := s.lists.push elements } := by
  unfold call
  show EStateM.bind (fun s => .ok s s) _ s = _
  simp only [EStateM.bind, h]
  rfl

end Wei.TextMethod
