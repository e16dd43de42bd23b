import Wei.Fault
import Wei.Text.Point

/-!
The values of the language. A value that a script can change, or that has an identity of its
own, lives in the store, and the value proper is a reference to it; so two values are one and the
same exactly when they are equal here.

Faults, and what `return`, `break` and `continue` send on their way, are values as well: they can be
answered like any other. Scripts do not come to hold them.
-/

namespace Wei

/-- The kinds of things that live in the store. -/
inductive Kind where
  | scope | list | dict | function | cls | inst | bound | module
  deriving DecidableEq, Repr

/-- A reference to a thing of one kind in the store. -/
structure Ref (kind : Kind) where
  index : Nat
  deriving DecidableEq, Repr

instance {kind : Kind} : Inhabited (Ref kind) := ⟨⟨0⟩⟩

theorem Ref.index_inj {kind : Kind} {r q : Ref kind} : r.index = q.index ↔ r = q := by
  cases r
  cases q
  simp

/-- The functions that a name stands for when no scope binds it. -/
inductive Builtin where
  | abs | bin | oct | hex | len | type | print
  deriving DecidableEq, Repr

/-- The methods of strings. -/
inductive TextMethod where
  | count | endswith | find | format | join | lower | split | startswith | strip | upper
  deriving DecidableEq, Repr

/-- The methods of lists. -/
inductive ListMethod where
  | append | extend | insert | pop | remove | reverse
  deriving DecidableEq, Repr

/-- What can be answered and held in a variable. -/
inductive Value where
  | null
  | bool (b : Bool)
  | int (n : Int64)
  | str (t : Text)
  | list (r : Ref .list)
  | dict (r : Ref .dict)
  | function (r : Ref .function)
  | builtin (b : Builtin)
  | cls (r : Ref .cls)
  | inst (r : Ref .inst)
  /-- A method with its receiver, or what `super` stands for. -/
  | bound (r : Ref .bound)
  | module (r : Ref .module)
  /-- What a module is told about itself. -/
  | info (r : Ref .module)
  /-- A failure of a script. -/
  | error (f : Fault)
  /-- A value on its way to the end of the function that returns it. -/
  | returned (v : Value)
  /-- The loop around this is to end. -/
  | breaking
  /-- The loop around this is to go on with its next round. -/
  | continuing
  deriving DecidableEq, Repr, Inhabited

namespace Value

/-- Is it a value that a script can hold, and no fault and nothing on its way? -/
def isOrdinary : Value → Bool
  | .error _ => false
  | .returned _ => false
  | .breaking => false
  | .continuing => false
  | _ => true

end Value

/-- What a dictionary is indexed by: the type of the key and a digest of 64 bits. -/
structure HashKey where
  type : String
  digest : UInt64
  deriving DecidableEq, Repr

namespace Builtin

/-- All of them. -/
def all : List Builtin := [.abs, .bin, .oct, .hex, .len, .type, .print]

/-- The name by which a script finds it. -/
def name : Builtin → String
  | .abs => "abs"
  | .bin => "bin"
  | .oct => "oct"
  | .hex => "hex"
  | .len => "len"
  | .type => "type"
  | .print => "print"

/-- The builtin of this name. -/
def ofName? (name : String) : Option Builtin := all.find? (·.name == name)

end Builtin

namespace TextMethod

/-- All of them, in the order of their names. -/
def all : List TextMethod :=
  [.count, .endswith, .find, .format, .join, .lower, .split, .startswith, .strip, .upper]

/-- The name of the attribute. -/
def name : TextMethod → String
  | .count => "count"
  | .endswith => "endswith"
  | .find => "find"
  | .format => "format"
  | .join => "join"
  | .lower => "lower"
  | .split => "split"
  | .startswith => "startswith"
  | .strip => "strip"
  | .upper => "upper"

/-- The method of this name. -/
def ofName? (name : String) : Option TextMethod := all.find? (·.name == name)

/-- How the method prints when it has no receiver. -/
def display (m : TextMethod) : String := "<builtin method '" ++ m.name ++ "' of 'str' object>"

end TextMethod

namespace ListMethod

/-- All of them, in the order of their names. -/
def all : List ListMethod := [.append, .extend, .insert, .pop, .remove, .reverse]

/-- The name of the attribute. -/
def name : ListMethod → String
  | .append => "append"
  | .extend => "extend"
  | .insert => "insert"
  | .pop => "pop"
  | .remove => "remove"
  | .reverse => "reverse"

/-- The method of this name. -/
def ofName? (name : String) : Option ListMethod := all.find? (·.name == name)

/-- How the method prints when it has no receiver. -/
def display (m : ListMethod) : String := "<builtin method '" ++ m.name ++ "' of 'list' object>"

end ListMethod

end Wei
