import Wei.Render

/-!
The arguments of built-in functions and methods. Their number is checked first, then their types
from the left.
-/

namespace Wei.Argument

/-- There must be exactly `want` arguments. -/
def exactly (want : Nat) (args : List Value) : Except Fault Unit :=
  if args.length = want then .ok () else .error (.wrongArity args.length want)

theorem length_of_exactly {want : Nat} {args : List Value} {u : Unit}
    (h : exactly want args = .ok u) : args.length = want := by
  unfold exactly at h
  split at h
  · next hlength => exact hlength
  · cases h

/-- There must be between `low` and `high` arguments. -/
def between (low high : Nat) (args : List Value) : Except Fault Unit :=
  if low ≤ args.length ∧ args.length ≤ high then .ok ()
  else .error (.wrongArityRange args.length low high)

theorem length_of_between {low high : Nat} {args : List Value} {u : Unit}
    (h : between low high args = .ok u) : low ≤ args.length ∧ args.length ≤ high := by
  unfold between at h
  split at h
  · next hlength => exact hlength
  · cases h

/-- The string at a place; none if there is no argument. -/
def text? (s : Store) (args : List Value) (place : Nat) : Except Fault (Option Text) :=
  match args[place]? with
  | none => .ok none
  | some (.str t) => .ok (some t)
  | some v => .error (.wrongArgumentAt (s.label v) (place + 1))

/-- The integer at a place; none if there is no argument. -/
def int? (s : Store) (args : List Value) (place : Nat) : Except Fault (Option Int) :=
  match args[place]? with
  | none => .ok none
  | some (.int n) => .ok (some n.toInt)
  | some v => .error (.wrongArgumentAt (s.label v) (place + 1))

/-- The list at a place; none if there is no argument. -/
def list? (s : Store) (args : List Value) (place : Nat) : Except Fault (Option (Ref .list)) :=
  match args[place]? with
  | none => .ok none
  | some (.list r) => .ok (some r)
  | some v => .error (.wrongArgumentAt (s.label v) (place + 1))

/-- The only argument. -/
def only (args : List Value) : Except Fault Value :=
  match args with
  | [v] => .ok v
  | _ => .error (.wrongArity args.length 1)

theorem eq_of_only {args : List Value} {v : Value} (h : only args = .ok v) : args = [v] := by
  unfold only at h
  split at h
  · cases h
    rfl
  · cases h

/-- The only argument, which must be an integer. -/
def onlyInt (s : Store) (args : List Value) : Except Fault Int64 := do
  match ← only args with
  | .int n => .ok n
  | v => .error (.wrongArgument (s.label v))

/-- The only argument, which must be a string. -/
def onlyText (s : Store) (args : List Value) : Except Fault Text := do
  match ← only args with
  | .str t => .ok t
  | v => .error (.wrongArgument (s.label v))

/-- The only argument, which must be a list. -/
def onlyList (s : Store) (args : List Value) : Except Fault (Ref .list) := do
  match ← only args with
  | .list r => .ok r
  | v => .error (.wrongArgument (s.label v))

end Wei.Argument
