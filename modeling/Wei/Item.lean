import Wei.Position
import Wei.Render

/-!
Items of strings, lists and dictionaries.
-/

namespace Wei

namespace Store

/-- The item of a string: the string of one code point. -/
def textItem (t : Text) : Value → Except Fault Value
  | .int i =>
    match Position.index? i.toInt t.length with
    | some k => .ok (.str [t.getD k (.char ' ')])
    | none => .error .textIndexRange
  | _ => .error .textIndexType

/-- The place in a list that an index names; none if it is out of range. -/
def listIndex (s : Store) (r : Ref .list) (index : Value) : Except Fault (Option Nat) :=
  match index with
  | .int i => .ok (Position.index? i.toInt (s.list r).length)
  | v => .error (.listIndexType (s.label v))

/-- The item of a list. -/
def listItem (s : Store) (r : Ref .list) (index : Value) : Except Fault Value := do
  match ← s.listIndex r index with
  | some k => .ok ((s.list r).getD k .null)
  | none => .error .listIndexRange

/-- The item of a dictionary. -/
def dictItem (s : Store) (r : Ref .dict) (key : Value) : Except Fault Value :=
  match key.hashKey? with
  | none => .error (.unhashable (s.label key))
  | some k =>
    match (s.dict r).find? k with
    | some entry => .ok entry.2
    | none => .error (.missingKey (s.render key).plain)

/-- The item of a value. -/
def item (s : Store) (subject index : Value) : Except Fault Value :=
  match subject with
  | .str t => textItem t index
  | .list r => s.listItem r index
  | .dict r => s.dictItem r index
  | v => .error (.notSubscriptable (s.label v))

end Store

namespace StoreM

/-- Writes an item of a list. -/
def setListItem (r : Ref .list) (index value : Value) : StoreM Unit :=
  fun s =>
    match s.listIndex r index with
    | .error f => .error f s
    | .ok none => .error .listAssignmentRange s
    | .ok (some k) => .ok () (s.setList r ((s.list r).set k value))

/-- Writes an item of a dictionary. The new key replaces an old one that has the same digest, and
takes its place. -/
def setDictItem (r : Ref .dict) (key value : Value) : StoreM Unit :=
  fun s =>
    match key.hashKey? with
    | none => .error (.unhashable (s.label key)) s
    | some k => .ok () (s.setDict r ((s.dict r).insert k (key, value)))

/-- Writes an item of a value. Strings have items but none can be written. -/
def setItem (subject index value : Value) : StoreM Unit :=
  match subject with
  | .list r => setListItem r index value
  | .dict r => setDictItem r index value
  | v => fun s => .error (.notSubscriptable (s.label v)) s

end StoreM

end Wei
