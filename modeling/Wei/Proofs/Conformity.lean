import Mathlib.Tactic.Lemma
import Wei.Crash
import Wei.Proofs.Alphabet
import Wei.Syntax

/-!
Trees that conform to the grammar. Not every tree that a host can put together stands for a program
text: the grammar has no literals with a fractional part, lets only names, items and attributes be
assigned to, gives every definition a name, and lets the body of a class consist of declarations of
members and methods, which stand nowhere else. The strings in a tree may be bound to an alphabet.
-/

namespace Wei

section Trees

variable [A : Alphabet]

/-- Is the literal of a type that the language has, and is it over the alphabet? -/
def Literal.conforms : Literal → Bool
  | .float _ => false
  | .str t => t.all A.has
  | _ => true

mutual

/-- Does the expression conform to the grammar? -/
def Expr.conforms : Expr → Bool
  | .literal l => l.conforms
  | .name _ => true
  | .list es => Expr.allConform es
  | .dict pairs => Expr.pairsConform pairs
  | .function f => f.conforms
  | .unary _ e => e.conforms
  | .binary _ lhs rhs => lhs.conforms && rhs.conforms
  | .shortCircuit _ lhs rhs => lhs.conforms && rhs.conforms
  | .call callee args => callee.conforms && Expr.allConform args
  | .item subject index => subject.conforms && index.conforms
  | .attr subject _ => subject.conforms
  | .load path => path.conforms

/-- Do all the expressions conform? -/
def Expr.allConform : List Expr → Bool
  | [] => true
  | e :: rest => e.conforms && Expr.allConform rest

/-- Do all the keys and values of a dictionary conform? -/
def Expr.pairsConform : List (Expr × Expr) → Bool
  | [] => true
  | (k, v) :: rest => k.conforms && v.conforms && Expr.pairsConform rest

/-- Does the expression conform, if there is one? -/
def Expr.optionConforms : Option Expr → Bool
  | none => true
  | some e => e.conforms

/-- Does the code of the function conform? -/
def FunctionLiteral.conforms : FunctionLiteral → Bool
  | .mk _ _ body => Stmt.allConform body

/-- Is the target a place, and do its parts conform? -/
def Target.conforms : Target → Bool
  | .name _ => true
  | .item subject index => subject.conforms && index.conforms
  | .attr subject _ => subject.conforms
  | .loop _ _ => false
  | .invalid => false

/-- Does the statement conform, where it is not in the body of a class? -/
def Stmt.conforms : Stmt → Bool
  | .mk _ action => action.conforms

/-- Do all the statements conform? -/
def Stmt.allConform : List Stmt → Bool
  | [] => true
  | s :: rest => s.conforms && Stmt.allConform rest

/-- Do the branches conform? -/
def Stmt.branchesConform : List (Expr × List Stmt) → Bool
  | [] => true
  | (condition, body) :: rest =>
    condition.conforms && Stmt.allConform body && Stmt.branchesConform rest

/-- Do the statements conform, if there are some? -/
def Stmt.optionConforms : Option (List Stmt) → Bool
  | none => true
  | some body => Stmt.allConform body

/-- Does what a statement does conform, where it is not in the body of a class? -/
def Action.conforms : Action → Bool
  | .block body => Stmt.allConform body
  | .declare _ value _ => Expr.optionConforms value
  | .assign target value => target.conforms && value.conforms
  | .eval e => e.conforms
  | .ret value => Expr.optionConforms value
  | .branch branches otherwise => Stmt.branchesConform branches && Stmt.optionConforms otherwise
  | .loop condition body => condition.conforms && Stmt.allConform body
  | .each _ subject body _ => subject.conforms && Stmt.allConform body
  | .breakLoop => true
  | .continueLoop => true
  | .define f => f.name.isSome && f.conforms
  | .classDef _ parent body => Expr.optionConforms parent && Stmt.allDeclare body
  | .member _ _ _ _ => false
  | .method _ _ => false
  | .exports _ => true

/-- Does what a statement does conform, where it is in the body of a class? -/
def Action.declares : Action → Bool
  | .member _ value _ _ => Expr.optionConforms value
  | .method f _ => f.name.isSome && f.conforms
  | _ => false

/-- Does the statement conform, where it is in the body of a class? -/
def Stmt.declares : Stmt → Bool
  | .mk _ action => action.declares

/-- Does the body of a class conform? -/
def Stmt.allDeclare : List Stmt → Bool
  | [] => true
  | s :: rest => s.declares && Stmt.allDeclare rest

end

/-- Does what a host wants to have evaluated conform? -/
def Node.conforms : Node → Bool
  | .program p => Stmt.allConform p.body
  | .stmt s => s.conforms
  | .expr e => e.conforms

end Trees

/-! ### Trees that are admitted -/

/-- What is asked of a tree if all trees must conform. -/
def Admits (strict conforms : Bool) : Prop := strict = true → conforms = true

namespace Admits

variable {strict a b : Bool}

lemma always : Admits strict true := fun _ => rfl

lemma of_lax (a : Bool) : Admits false a := nofun

lemma left (h : Admits strict (a && b)) : Admits strict a :=
  fun hs => ((Bool.and_eq_true a b).mp (h hs)).1

lemma right (h : Admits strict (a && b)) : Admits strict b :=
  fun hs => ((Bool.and_eq_true a b).mp (h hs)).2

/-- Where a tree out of place is admitted, every tree is. -/
lemma any (h : Admits strict false) : Admits strict a := fun hs => nomatch h hs

end Admits

section Regimes

variable [A : Alphabet]

/-- What is to be reckoned with: whether all trees must conform, and in which of its failures the
host may end. If trees need not conform, then in all of them, and texts may have any code points. If
texts may have surrogates, the host may fail to encode them. -/
structure Regime where
  strict : Bool
  crash : Crash → Prop
  crash_of_lax : strict = false → ∀ c, crash c
  has_of_lax : strict = false → ∀ p, A.has p = true
  encodes : A.Plain ∨ crash .unencodable

namespace Regime

/-- The host may end in any of its failures. -/
def lenientOver (strict : Bool) (h : strict = false → ∀ p, A.has p = true) : Regime :=
  ⟨strict, fun _ => True, fun _ _ => trivial, h, .inr trivial⟩

/-- In this failure the host may end over a text. -/
def Encoding (c : Crash) : Prop := ¬ A.Plain ∧ c = .unencodable

/-- All trees conform, and the host may end in certain failures, and over a text that has no UTF-8
form if there may be such. -/
def grammar (crash : Crash → Prop) : Regime where
  strict := true
  crash c := crash c ∨ Encoding c
  crash_of_lax := nofun
  has_of_lax := nofun
  encodes := (Classical.em A.Plain).imp_right fun h => .inr ⟨h, rfl⟩

variable {R : Regime}

/-- What is asked of a tree. -/
abbrev Admits (R : Regime) (conforms : Bool) : Prop := Wei.Admits R.strict conforms

/-- Over a tree that is out of place the host may fail. -/
lemma crash_of_admits (h : R.Admits false) (c : Crash) : R.crash c := by
  cases hR : R.strict with
  | true => exact nomatch h hR
  | false => exact R.crash_of_lax hR c

/-- A string in an admitted tree is over the alphabet. -/
lemma over_of_admits {t : Text} (h : R.Admits (t.all A.has)) : t.Over := by
  cases hR : R.strict with
  | true => exact List.all_eq_true.mp (h hR)
  | false => exact fun p _ => R.has_of_lax hR p

end Regime

end Regimes

/-- The host may end in any of its failures, and texts may have any code points. -/
def Regime.lenient (strict : Bool) : Regime := lenientOver strict fun _ _ => rfl

end Wei
