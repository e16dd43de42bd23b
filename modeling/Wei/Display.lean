import Wei.Fault
import Wei.Text.Quoted
import Wei.Value

/-!
Descriptions of values and faults for the host, which tell a string from what it says.
-/

namespace Wei

/-- The description of a fault. -/
def Fault.display (f : Fault) : String :=
  "<" ++ f.kind.hostName ++ " " ++ Text.quoted f.message ++ ">"

/-- The description of a value, if values of its type have one. -/
def Value.display? : Value → Option String
  | .int n => some ("<Integer " ++ Numeral.decimal n.toInt ++ ">")
  | .str t => some ("<String " ++ Text.quoted t ++ ">")
  | .bool b => some ("<Boolean " ++ (if b then "true" else "false") ++ ">")
  | .error f => some f.display
  | _ => none

end Wei
