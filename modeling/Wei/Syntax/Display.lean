import Wei.Binary64.Display
import Wei.Syntax.Operator
import Wei.Text.Quoted

/-!
Descriptions of trees for the host. Most kinds of nodes show nothing but their kind and their
address, which is the host's.
-/

namespace Wei

/-- How a node shows that has nothing more to say than its kind. -/
def kindDisplay (address : Nat) (kind : String) : String :=
  "<weilang.syntax." ++ kind ++ " object at 0x" ++ String.ofList (Nat.toDigits 16 address) ++ ">"

/-- How a literal shows. -/
def Literal.display : Literal → String
  | .null => "None"
  | .bool b => if b then "True" else "False"
  | .int n => Numeral.decimal n
  | .str t => Text.quoted t
  | .float x => x.display

/-- How the code of a function shows. -/
def FunctionLiteral.display (f : FunctionLiteral) : String :=
  "<fn " ++ f.name.getD "" ++ "(" ++ ", ".intercalate f.params ++ ")>"

/-- How an expression shows. -/
def Expr.display (address : Nat) : Expr → String
  | .literal l => "<Literal " ++ l.display ++ ">"
  | .name x => "<Identifier " ++ x ++ ">"
  | .list _ => kindDisplay address "ListLiteral"
  | .dict _ => kindDisplay address "DictLiteral"
  | .function f => f.display
  | .unary _ _ => kindDisplay address "Unary"
  | .binary op _ _ => "<Binary " ++ op.symbol ++ ">"
  | .shortCircuit _ _ _ => kindDisplay address "ShortCut"
  | .call _ _ => kindDisplay address "Call"
  | .item _ _ => kindDisplay address "Subscript"
  | .attr _ x => "<Attribute ." ++ x ++ ">"
  | .load _ => kindDisplay address "Import"

/-- How a statement shows, by what it does. -/
def Action.display (address : Nat) : Action → String
  | .block body => "<Block of " ++ Numeral.decimal body.length ++ ">"
  | .declare x _ constant => "<" ++ (if constant then "con" else "var") ++ " " ++ x ++ ">"
  | .assign _ _ => kindDisplay address "Assign"
  | .eval _ => kindDisplay address "ExpressionStatement"
  | .ret _ => kindDisplay address "Return"
  | .branch _ _ => kindDisplay address "If"
  | .loop _ _ => kindDisplay address "While"
  | .each _ _ _ _ => kindDisplay address "ForIn"
  | .breakLoop => kindDisplay address "Break"
  | .continueLoop => kindDisplay address "Continue"
  | .define _ => kindDisplay address "FunctionDefinition"
  | .classDef x _ _ => "<class " ++ x ++ ">"
  | .member _ _ _ _ => kindDisplay address "MemberDeclaration"
  | .method _ _ => kindDisplay address "MethodDefinition"
  | .exports _ => kindDisplay address "Export"

/-- How a node shows. -/
def Node.display (address : Nat) : Node → String
  | .program p => "<Program of " ++ Numeral.decimal p.body.length ++ ">"
  | .stmt s => s.action.display address
  | .expr e => e.display address

end Wei
