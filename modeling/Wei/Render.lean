import Wei.Crash
import Wei.Digest
import Wei.Store

/-!
What can be said of any value: its type, its truth, the key under which a dictionary files it,
and the text that it prints as. A list or dictionary that is met again inside of itself prints as
dots, so the text is finite.
-/

namespace Wei

/-- The UTF-8 form of a text. -/
def Text.encode (t : Text) : Except Crash String :=
  if t.isPlain then .ok t.plain else .error .unencodable

theorem Text.encode_ofString (s : String) : Text.encode s = .ok s := by
  unfold Text.encode
  rw [if_pos (isPlain_ofString s), plain_ofString]

theorem Text.eq_of_encode {t : Text} {s : String} (h : t.encode = .ok s) : t = s := by
  unfold Text.encode at h
  split at h
  · next hplain =>
    obtain ⟨⟩ := h
    exact (ofString_plain hplain).symm
  · cases h

namespace Value

/-- The key of a value in a dictionary. Only null, booleans, integers and strings have one, and of
the strings those that have a UTF-8 form. -/
def hashKey? : Value → Option HashKey
  | .null => some ⟨"null", 0⟩
  | .bool b => some ⟨"bool", if b then 1 else 0⟩
  | .int n => some ⟨"int", n.toUInt64⟩
  | .str t => if t.isPlain then some ⟨"str", Digest.ofText t.plain⟩ else none
  | _ => none

@[simp] theorem hashKey?_ofString (x : String) :
    (str x).hashKey? = some ⟨"str", Digest.ofText x⟩ := by
  simp [hashKey?]

/-- To look for the key of a string, the host needs its UTF-8 form. -/
def encode : Value → Except Crash Unit
  | .str t => t.encode.map fun _ => ()
  | _ => .ok ()

/-- What has a key in a dictionary has a UTF-8 form, if it is a string. -/
theorem encode_of_hashKey? {v : Value} {k : HashKey} (h : v.hashKey? = some k) :
    v.encode = .ok () := by
  cases v with
  | str t =>
    change (if t.isPlain then _ else none) = some k at h
    split at h
    · next ht => simp [encode, Text.encode, ht, Except.map]
    · cases h
  | _ => rfl

/-- Only a dictionary looks for the key of an index. -/
def encodeIndex (index : Value) : Value → Except Crash Unit
  | .dict _ => index.encode
  | _ => .ok ()

/-- The value that is on its way, or the value itself. -/
def payload : Value → Value
  | .returned v => v.payload
  | v => v

end Value

/-- The name by which a function goes when it prints or stands in a traceback. -/
def Closure.title (f : Closure) : String :=
  match f.name with
  | none => "<anonymous>"
  | some name => if name.isEmpty then "<anonymous>" else name

/-- The type of a bound method. -/
def Bound.typeName : Bound → String
  | .text _ _ => "bound_builtin_method"
  | .list _ _ => "bound_builtin_method"
  | .method _ _ => "bound_method"
  | .classMethod _ _ => "bound_class_method"
  | .super _ _ => "super"

namespace Store

variable (s : Store)

/-- The type of a value. That of an instance is the name of its class. -/
def typeName : Value → String
  | .null => "null"
  | .bool _ => "bool"
  | .int _ => "int"
  | .str _ => "str"
  | .list _ => "list"
  | .dict _ => "dict"
  | .function _ => "function"
  | .builtin _ => "builtin"
  | .cls _ => "class"
  | .inst r => (s.cls (s.inst r).cls).name
  | .bound r => (s.bound r).typeName
  | .module _ => "module"
  | .info _ => "wei"
  | .error _ => "error"
  | .returned _ => "return_value"
  | .breaking => "break_value"
  | .continuing => "continue_value"

/-- How messages call the type of a value. A class goes by its own name. -/
def label : Value → String
  | .cls r => "<class " ++ (s.cls r).name ++ ">"
  | v => s.typeName v

/-- Does the value count as true? -/
def truth : Value → Bool
  | .null => false
  | .bool b => b
  | .int n => n != 0
  | .str t => !t.isEmpty
  | .list r => !(s.list r).isEmpty
  | .dict r => !(s.dict r).entries.isEmpty
  | _ => true

/-! ### Printing -/

/-- The address of an instance, as it prints. -/
def address (r : Ref .inst) : String := String.ofList (Nat.toDigits 16 (s.addresses r.index))

/-- How an instance prints. -/
def renderInst (r : Ref .inst) : String :=
  "<" ++ (s.cls (s.inst r).cls).name ++ " object at 0x" ++ s.address r ++ ">"

/-- How a bound method prints. -/
def renderBound : Bound → String
  | .text m _ => "<bound builtin method '" ++ m.name ++ "' of 'str' object>"
  | .list m _ => "<bound builtin method '" ++ m.name ++ "' of 'list' object>"
  | .method this f =>
    "<bound method '" ++ ((s.function f).name.getD "") ++ "' of '" ++ s.renderInst this ++ "'>"
  | .classMethod c f =>
    "<class method '" ++ ((s.function f).name.getD "") ++ "' of '" ++ (s.cls c).name ++ "'>"
  | .super _ _ => "<super>"

/-- How a value that is no container prints. -/
def renderPlain : Value → Text
  | .null => "null"
  | .bool b => if b then "true" else "false"
  | .int n => Numeral.decimal n.toInt
  | .str t => t
  | .list _ => "[...]"
  | .dict _ => "\x7b...\x7d"
  | .function r => ("<function " ++ (s.function r).title ++ ">" : String)
  | .builtin b => ("<builtin function " ++ b.name ++ ">" : String)
  | .cls r => ("<class " ++ (s.cls r).name ++ ">" : String)
  | .inst r => s.renderInst r
  | .bound r => s.renderBound (s.bound r)
  | .module r => ("<module object at '" ++ (s.module r).path ++ "'>" : String)
  | .info _ => "wei"
  | .error f => f.render
  | .returned v => renderPlain v
  | .breaking => "<break_value>"
  | .continuing => "<continue_value>"

/-- Printing keeps the containers that are being printed, each of them once. -/
abbrev Printing := StateM (List Value)

/-- Prints a container: as dots if it is being printed already. While its contents print, it is
being printed. -/
def printContainer (c : Value) (contents : Printing Text) : Printing Text := do
  if (← get).contains c then return s.renderPlain c
  modify (c :: ·)
  let text ← contents
  modify (·.erase c)
  return text

/-- The text of a list whose elements print like this. -/
def listText (elements : List Text) : Text :=
  "[" ++ List.intercalate ", " elements ++ "]"

/-- The text of a dictionary whose entries print like this. -/
def dictText (entries : List (Text × Text)) : Text :=
  let texts : List Text := entries.map fun (key, value) => key ++ Text.ofString ": " ++ value
  "\x7b" ++ List.intercalate ", " texts ++ "\x7d"

/-- Prints a value. Containers are entered at most `depth` deep. -/
def printWithin (s : Store) : Nat → Value → Printing Text
  | 0, v => return s.renderPlain v
  | depth + 1, v =>
    match v.payload with
    | .list r => s.printContainer (.list r) do
      return listText (← (s.list r).mapM (s.printWithin depth))
    | .dict r => s.printContainer (.dict r) do
      let entries ← (s.dict r).values.mapM fun e => do
        let key ← s.printWithin depth e.1
        let value ← s.printWithin depth e.2
        return (key, value)
      return dictText entries
    | v => return s.renderPlain v

/-- How many containers there are; no value nests deeper than that without meeting one of them
again. -/
def containers : Nat := s.lists.size + s.dicts.size

/-- Prints a value. The limit of a session bounds the depth of evaluation only, so containers are
printed however deep they nest. A host that puts one limit on all of its recursion answers on
containers that nest too deep for it that the run went too deep; that is left out here. -/
def print (v : Value) : Printing Text := s.printWithin (s.containers + 1) v

/-- The text that a value prints as. -/
def render (v : Value) : Text := ((s.print v).run []).1

/-- How a value prints inside of the containers `active`, which print as dots. Containers are
entered at most `depth` deep. -/
def renderWithin (depth : Nat) (active : List Value) (v : Value) : Text :=
  ((s.printWithin depth v).run active).1

/-! ### What printing leaves -/

namespace Printing

variable {α β : Type} {active active' : List Value} {a : α}

theorem run_bind {p : Printing α} (h : p.run active = (a, active')) (q : α → Printing β) :
    (p >>= q).run active = (q a).run active' := by
  show (q (p.run active).1).run (p.run active).2 = _
  rw [h]

theorem run_mapM {p : α → Printing β} {text : α → β}
    (h : ∀ x, (p x).run active = (text x, active)) (xs : List α) :
    (xs.mapM p).run active = (xs.map text, active) := by
  induction xs with
  | nil => rfl
  | cons x xs ih =>
    rw [List.mapM_cons, run_bind (h x), run_bind ih]
    rfl

end Printing

section Leaves

variable {s} {depth : Nat} {active : List Value}

theorem run_printContainer {c : Value} {contents : Printing Text} {text : Text}
    (h : contents.run (c :: active) = (text, c :: active)) :
    (s.printContainer c contents).run active =
      (if active.contains c then s.renderPlain c else text, active) := by
  show (if active.contains c then pure (s.renderPlain c) else do
    modify (c :: ·)
    let text ← contents
    modify (·.erase c)
    return text : Printing Text).run active = _
  split
  · rfl
  · show (contents >>= fun text => modify (·.erase c) >>= fun _ => pure text).run (c :: active) = _
    rw [Printing.run_bind h]
    show (text, (c :: active).erase c) = _
    rw [List.erase_cons_head]

theorem run_printWithin_list {r : Ref .list} {text : Value → Text}
    (h : ∀ v, (s.printWithin depth v).run (.list r :: active) = (text v, .list r :: active)) :
    (s.printWithin (depth + 1) (.list r)).run active =
      (if active.contains (.list r) then s.renderPlain (.list r)
        else listText ((s.list r).map text), active) := by
  refine run_printContainer ?_
  rw [Printing.run_bind (Printing.run_mapM h (s.list r))]
  rfl

theorem run_printWithin_dict {r : Ref .dict} {text : Value → Text}
    (h : ∀ v, (s.printWithin depth v).run (.dict r :: active) = (text v, .dict r :: active)) :
    (s.printWithin (depth + 1) (.dict r)).run active =
      (if active.contains (.dict r) then s.renderPlain (.dict r)
        else dictText ((s.dict r).values.map fun e => (text e.1, text e.2)), active) := by
  refine run_printContainer ?_
  rw [Printing.run_bind (Printing.run_mapM _ (s.dict r).values)]
  · rfl
  · intro e
    rw [Printing.run_bind (h e.1), Printing.run_bind (h e.2)]
    rfl

end Leaves

/-- **Printing leaves the containers that are being printed as it found them.** -/
theorem run_printWithin (depth : Nat) (active : List Value) (v : Value) :
    (s.printWithin depth v).run active = (s.renderWithin depth active v, active) := by
  refine Prod.ext rfl ?_
  induction depth generalizing active v with
  | zero => cases v <;> rfl
  | succ depth ih =>
    have inside (active : List Value) (w : Value) : (s.printWithin depth w).run active =
        (s.renderWithin depth active w, active) := Prod.ext rfl (ih active w)
    induction v with
    | list r => rw [run_printWithin_list (inside (.list r :: active))]
    | dict r => rw [run_printWithin_dict (inside (.dict r :: active))]
    | returned v ih => exact ih
    | _ => rfl

/-- How a list prints inside of other containers. -/
theorem renderWithin_list (depth : Nat) (active : List Value) (r : Ref .list) :
    s.renderWithin (depth + 1) active (.list r) =
      if active.contains (.list r) then s.renderPlain (.list r)
      else listText ((s.list r).map (s.renderWithin depth (.list r :: active))) :=
  congrArg Prod.fst (run_printWithin_list (s.run_printWithin depth (.list r :: active)))

/-- How a dictionary prints inside of other containers. -/
theorem renderWithin_dict (depth : Nat) (active : List Value) (r : Ref .dict) :
    s.renderWithin (depth + 1) active (.dict r) =
      if active.contains (.dict r) then s.renderPlain (.dict r)
      else dictText ((s.dict r).values.map fun e =>
        (s.renderWithin depth (.dict r :: active) e.1,
          s.renderWithin depth (.dict r :: active) e.2)) :=
  congrArg Prod.fst (run_printWithin_dict (s.run_printWithin depth (.dict r :: active)))

end Store

end Wei
