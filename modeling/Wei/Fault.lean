import Wei.Numeral

/-!
Faults: what goes wrong in a script. A fault has a kind and a message. All wordings stand here;
where a message names a value, it gets the label of its type.
-/

namespace Wei

/-- The kinds of faults. -/
inductive FaultKind where
  | general | wrongType | wrongArity | noAttribute | undefined | constantReassignment
  | redeclared | outOfRange | missingKey | unhashable | unpackMismatch | notIterable
  | notCallable | moduleNotFound | brokenModule | uninitialized | badValue | zeroDivision
  | tooDeep | unreachable
  deriving DecidableEq, Repr, Inhabited

/-- A failure of a script. -/
structure Fault where
  kind : FaultKind
  message : String
  deriving DecidableEq, Repr, Inhabited

namespace FaultKind

/-- All of them. -/
def all : List FaultKind :=
  [.general, .wrongType, .wrongArity, .noAttribute, .undefined, .constantReassignment,
    .redeclared, .outOfRange, .missingKey, .unhashable, .unpackMismatch, .notIterable,
    .notCallable, .moduleNotFound, .brokenModule, .uninitialized, .badValue, .zeroDivision,
    .tooDeep, .unreachable]

/-- How the kind prints in front of a message. -/
def title : FaultKind → String
  | .general => "Error"
  | .wrongType => "TypeError"
  | .wrongArity => "ArityError"
  | .noAttribute => "AttributeError"
  | .undefined => "NameError"
  | .constantReassignment => "ConstReassignmentError"
  | .redeclared => "RedeclarationError"
  | .outOfRange => "IndexError"
  | .missingKey => "KeyError"
  | .unhashable => "UnhashableTypeError"
  | .unpackMismatch => "UnpackError"
  | .notIterable => "NotIterableError"
  | .notCallable => "NotCallableError"
  | .moduleNotFound => "ModuleNotFoundError"
  | .brokenModule => "ImportError"
  | .uninitialized => "UninitializedMemberError"
  | .badValue => "ValueError"
  | .zeroDivision => "ZeroDivisionError"
  | .tooDeep => "RecursionError"
  | .unreachable => "Unreachable"

/-- The name of the kind in a description for the host. -/
def hostName : FaultKind → String
  | .general => "Error"
  | .wrongType => "WrongType"
  | .wrongArity => "WrongArity"
  | .noAttribute => "NoAttribute"
  | .undefined => "Undefined"
  | .constantReassignment => "ConstantReassignment"
  | .redeclared => "Redeclared"
  | .outOfRange => "OutOfRange"
  | .missingKey => "MissingKey"
  | .unhashable => "Unhashable"
  | .unpackMismatch => "UnpackMismatch"
  | .notIterable => "NotIterable"
  | .notCallable => "NotCallable"
  | .moduleNotFound => "ModuleNotFound"
  | .brokenModule => "BrokenModule"
  | .uninitialized => "Uninitialized"
  | .badValue => "BadValue"
  | .zeroDivision => "ZeroDivision"
  | .tooDeep => "TooDeep"
  | .unreachable => "Unreachable"

/-- The kind that prints like this. -/
def ofTitle? (title : String) : Option FaultKind := all.find? (·.title == title)

end FaultKind

namespace Fault

/-- How a fault prints. -/
def render (f : Fault) : String := f.kind.title ++ ": " ++ f.message

/-- A count in a message. -/
def number (n : Nat) : String := Numeral.decimal n

/-- A name in a message. -/
def inQuotes (s : String) : String := "'" ++ s ++ "'"

/-! ### Names and scopes -/

def undefinedName (name : String) : Fault := ⟨.undefined, "undefined: " ++ inQuotes name⟩

def redeclaredVariable (name : String) : Fault :=
  ⟨.redeclared, "variable name " ++ inQuotes name ++ " redeclared in this block"⟩

def constantVariable (name : String) : Fault :=
  ⟨.constantReassignment, "cannot assign to constant: " ++ inQuotes name⟩

/-! ### Classes and attributes -/

def redeclaredMember (name : String) : Fault :=
  ⟨.redeclared, inQuotes name ++ " redeclared in this block"⟩

def constantAttribute (name : String) : Fault :=
  ⟨.constantReassignment, "cannot assign to constant attribute: " ++ inQuotes name⟩

def noAttribute (label name : String) : Fault :=
  ⟨.noAttribute, inQuotes label ++ " object has no attribute " ++ inQuotes name⟩

def cannotSetAttribute (label : String) : Fault :=
  ⟨.wrongType, inQuotes label ++ " object can not set attribute"⟩

def superIsReadOnly : Fault := ⟨.noAttribute, "super does not support set attribute"⟩

def pendingMember (className name : String) : Fault :=
  ⟨.uninitialized, className ++ " object does not initialize attribute: " ++ inQuotes name⟩

def cannotInherit (name label : String) : Fault :=
  ⟨.wrongType, "class " ++ inQuotes name ++ " cannot inherit from " ++ inQuotes label⟩

/-! ### Modules -/

def noSuchInfo (name : String) : Fault := ⟨.noAttribute, "undefined: 'wei." ++ name ++ "'"⟩

def infoIsReadOnly (name : String) : Fault :=
  ⟨.undefined, "undefined assignment: 'wei." ++ name ++ "'"⟩

def undefinedExport (name : String) : Fault := ⟨.undefined, "undefined " ++ inQuotes name⟩

def exportOutsideModule : Fault := ⟨.unreachable, "export outside of a module"⟩

def moduleNotFound (name : String) : Fault := ⟨.moduleNotFound, "Not found module: " ++ name⟩

def unreadableModule (path reason : String) : Fault :=
  ⟨.brokenModule,
    "Something went pear-shaped while trying to read " ++ path ++ ": " ++ reason⟩

def unparsableModule (path reason : String) : Fault :=
  ⟨.brokenModule, "cannot parse " ++ path ++ ": " ++ reason⟩

/-! ### Operators, items and iteration -/

def unsupportedOperand (symbol label : String) : Fault :=
  ⟨.wrongType, "unsupported operand type for " ++ symbol ++ ": " ++ inQuotes label⟩

def unsupportedOperands (symbol left right : String) : Fault :=
  ⟨.wrongType, "unsupported operand type for " ++ symbol ++ ": " ++ inQuotes left ++ " and "
    ++ inQuotes right⟩

def divisionByZero : Fault := ⟨.zeroDivision, "integer division by zero"⟩

def moduloByZero : Fault := ⟨.zeroDivision, "integer modulo by zero"⟩

def negativeShift : Fault := ⟨.badValue, "negative shift count"⟩

def notSubscriptable (label : String) : Fault :=
  ⟨.wrongType, inQuotes label ++ " object is not subscriptable"⟩

def textIndexType : Fault := ⟨.wrongType, "string index must be integer"⟩

def textIndexRange : Fault := ⟨.outOfRange, "string index out of range"⟩

def listIndexType (label : String) : Fault :=
  ⟨.wrongType, "list index expect 'int', got " ++ inQuotes label⟩

def listIndexRange : Fault := ⟨.outOfRange, "list index out of range"⟩

def listAssignmentRange : Fault := ⟨.outOfRange, "list assignment index out of range"⟩

def unhashable (label : String) : Fault :=
  ⟨.unhashable, "unhashable type: " ++ inQuotes label⟩

def missingKey (key : String) : Fault :=
  ⟨.missingKey, "key " ++ inQuotes key ++ " does not exist"⟩

def notIterable (label : String) : Fault :=
  ⟨.notIterable, inQuotes label ++ " object is not iterable"⟩

def unpackMismatch (want got : Nat) : Fault :=
  ⟨.unpackMismatch, (if want < got then "too many" else "not enough") ++
    " values to unpack (expected " ++ number want ++ ", got " ++ number got ++ ")"⟩

/-! ### Calls -/

def notCallable (label : String) : Fault :=
  ⟨.notCallable, inQuotes label ++ " object is not callable"⟩

def functionArity (want got : Nat) : Fault :=
  ⟨.wrongArity, "function expected " ++ number want ++ " arguments but got " ++ number got⟩

def constructorArity (got want : Nat) : Fault :=
  ⟨.wrongArity, "__init__ wrong number of arguments. got=" ++ number got ++ ", want="
    ++ number want⟩

def wrongArity (got want : Nat) : Fault :=
  ⟨.wrongArity, "wrong number of arguments. got=" ++ number got ++ ", want=" ++ number want⟩

def wrongArityRange (got low high : Nat) : Fault :=
  ⟨.wrongArity, "wrong number of arguments. got=" ++ number got ++ ", want=" ++ number low ++ "-"
    ++ number high⟩

def nothingToAppend : Fault := ⟨.wrongArity, "want at least 1 arguments"⟩

def wrongArgument (label : String) : Fault :=
  ⟨.wrongType, "wrong argument type: " ++ inQuotes label⟩

def wrongArgumentAt (label : String) (position : Nat) : Fault :=
  ⟨.wrongType, "wrong argument type: " ++ inQuotes label ++ " at " ++ number position⟩

def noLength (label : String) : Fault :=
  ⟨.wrongType, "object of type " ++ inQuotes label ++ " has no len()"⟩

def loneBrace (brace : Char) : Fault :=
  ⟨.badValue, "single '" ++ brace.toString ++ "' encountered in format string"⟩

def emptySeparator : Fault := ⟨.badValue, "empty separator"⟩

def popFromEmpty : Fault := ⟨.outOfRange, "pop from empty list"⟩

def popRange : Fault := ⟨.outOfRange, "list pop index out of range"⟩

def notInList : Fault := ⟨.badValue, "object not in list"⟩

/-! ### States that the grammar is there to prevent, and runaway recursion -/

def strayExit (signal : String) : Fault :=
  ⟨.unreachable, inQuotes signal ++ " outside of a loop"⟩

def notAPlace (description : String) : Fault :=
  ⟨.unreachable, "cannot assign to " ++ description⟩

def tooDeep : Fault := ⟨.tooDeep, "maximum recursion depth exceeded"⟩

end Fault

end Wei
