import Wei.Argument
import Wei.Integer
import Wei.World

/-!
The names that mean something when no scope binds them: seven functions, and the class `object`.
-/

namespace Wei

namespace Builtin

/-- The length of a value. -/
def length (s : Store) : Value → Except Fault Value
  | .str t => .ok (.int (Int64.ofNat t.length))
  | .list r => .ok (.int (Int64.ofNat (s.list r).length))
  | .dict r => .ok (.int (Int64.ofNat (s.dict r).size))
  | v => .error (.noLength (s.label v))

/-- An integer as text in a radix. -/
def inRadix (r : Radix) (s : Store) (args : List Value) : Except Fault Value := do
  let n ← Argument.onlyInt s args
  pure (.str (Numeral.marked r n.toInt))

/-- What comes out when texts are printed on one line. They are written one after the other, and
the first that has no UTF-8 form is the end of it. -/
def line (texts : List Text) : String :=
  if texts.all Text.isPlain then " ".intercalate (texts.map Text.plain) ++ "\n"
  else String.join ((texts.takeWhile Text.isPlain).map fun t => t.plain ++ " ")

/-- What a builtin function answers. -/
def answer (s : Store) (args : List Value) : Builtin → Except Fault Value
  | .abs => do
    let n ← Argument.onlyInt s args
    pure (.integer n.toInt.natAbs)
  | .bin => inRadix .binary s args
  | .oct => inRadix .octal s args
  | .hex => inRadix .hexadecimal s args
  | .len => do length s (← Argument.only args)
  | .type => do pure (.str (s.label (← Argument.only args)))
  | .print => .ok .null

/-- What a builtin function prints. -/
def output (s : Store) (args : List Value) : Builtin → String
  | .print => line (args.map s.render)
  | _ => ""

/-- What a call comes to. The host fails if something that is printed has no UTF-8 form. -/
def outcome (s : Store) (args : List Value) (b : Builtin) : Except Exit Value :=
  match b.answer s args, b with
  | .error f, _ => .error (.fault f)
  | .ok v, .print =>
    if (args.map s.render).all Text.isPlain then .ok v else .error (.crash .unencodable)
  | .ok v, _ => .ok v

/-- A call that comes to no answer is a fault, or the host fails over a text. -/
theorem outcome_error {s : Store} {args : List Value} {b : Builtin} {e : Exit}
    (h : b.outcome s args = .error e) : (∃ f, e = .fault f) ∨ e = .crash .unencodable := by
  unfold outcome at h
  split at h
  · cases h
    exact .inl ⟨_, rfl⟩
  · split at h
    · cases h
    · cases h
      exact .inr rfl
  · cases h

/-- Calls a builtin function. -/
def call (b : Builtin) (args : List Value) : WorldM Value :=
  fun w =>
    let after := { w with out := w.out ++ b.output w.store args }
    match b.outcome w.store args with
    | .ok v => .ok v after
    | .error e => .error e after

end Builtin

/-- What a name means when no scope binds it. -/
def rootName? (name : String) : Option Value :=
  if name = "object" then some (.cls Store.object) else (Builtin.ofName? name).map .builtin

/-- The names that mean something when no scope binds them. -/
def rootNames : List String := "object" :: Builtin.all.map (·.name)

end Wei
