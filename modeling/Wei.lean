import Wei.Arena
import Wei.Argument
import Wei.Attribute
import Wei.Binary64
import Wei.Binary64.Display
import Wei.Binary64.Reading
import Wei.Builtin
import Wei.CallStack
import Wei.Class
import Wei.Crash
import Wei.Digest
import Wei.Direct.Evaluator
import Wei.Direct.Expression
import Wei.Direct.Session
import Wei.Direct.Statement
import Wei.Display
import Wei.Engine
import Wei.Equality
import Wei.Eval.Call
import Wei.Eval.ClassBody
import Wei.Eval.Depth
import Wei.Eval.Evaluator
import Wei.Eval.Expression
import Wei.Eval.Load
import Wei.Eval.Machine
import Wei.Eval.Statement
import Wei.Fault
import Wei.FileTree
import Wei.Fraction
import Wei.Instance
import Wei.Item
import Wei.Iteration
import Wei.ListMethod
import Wei.Module
import Wei.Numeral
import Wei.Numeral.Reading
import Wei.Operator
import Wei.OrderedMap
import Wei.Path
import Wei.Position
import Wei.Render
import Wei.Report
import Wei.Scope
import Wei.Session
import Wei.Store
import Wei.Syntax
import Wei.Syntax.Build
import Wei.Syntax.Display
import Wei.Syntax.Operator
import Wei.Text.Blank
import Wei.Text.Case
import Wei.Text.CaseTable
import Wei.Text.CasedLetter
import Wei.Text.CharRange
import Wei.Text.DecimalDigit
import Wei.Text.Field
import Wei.Text.Line
import Wei.Text.Printable
import Wei.Text.Quoted
import Wei.Text.Search
import Wei.Text.Template
import Wei.TextMethod
import Wei.Traceback
import Wei.Value
import Wei.World
import Wei.Proofs.Congruence
import Wei.Proofs.Exits
import Wei.Proofs.Report
import Wei.Proofs.Propagation
import Wei.Proofs.Cell
import Wei.Proofs.Conformity
import Wei.Proofs.Sound
import Wei.Proofs.Edit
import Wei.Proofs.Conduct
import Wei.Proofs.Operation
import Wei.Proofs.Evaluation
import Wei.Proofs.Reachable
import Wei.Proofs.Telling
import Wei.Proofs.DirectStyle
import Wei.Proofs.Orderly
import Wei.Proofs.HostFailure
import Wei.Proofs.After
import Wei.Proofs.Bisimulation
import Wei.Proofs.Frames
import Wei.Proofs.Course
import Wei.Proofs.Tidy
import Wei.Proofs.Scoping
import Wei.Proofs.Constants
import Wei.Proofs.Construction
import Wei.Proofs.Kinship
import Wei.Proofs.Super
import Wei.Proofs.Loading
import Wei.Proofs.LoadingFailure
import Wei.Proofs.Imports
import Wei.Proofs.ImportChain
import Wei.Proofs.LoadOnce
import Wei.Proofs.FailedLoad
import Wei.Proofs.Extension
import Wei.Proofs.Inquiry
import Wei.Proofs.Parts
import Wei.Proofs.Statements
import Wei.Proofs.Trails
import Wei.Proofs.Tracebacks
import Wei.Proofs.Origins
import Wei.Proofs.Attribution
import Wei.Proofs.Provenance
import Wei.Proofs.Arithmetic
import Wei.Proofs.Exports
import Wei.Proofs.Pieces
import Wei.Proofs.Renaming
import Wei.Proofs.Equivariance
import Wei.Proofs.Reflection
import Wei.Proofs.Mirror
import Wei.Proofs.Anonymity
import Wei.Proofs.Agreement
import Wei.Proofs.Independence
import Wei.Proofs.Nearest
import Wei.Proofs.ScopeTree
import Wei.Proofs.ClassAttribute
import Wei.Proofs.Collision
import Wei.Proofs.Template
import Wei.Proofs.Occurrence
import Wei.Proofs.Splitting
import Wei.Proofs.Printing
import Wei.Proofs.Searching
import Wei.Proofs.Sequences
import Wei.Proofs.CanonicalPaths
import Wei.Proofs.Looks
import Wei.Proofs.Quotation
import Wei.Proofs.Visits
import Wei.Proofs.Captures
import Wei.Proofs.Links
import Wei.Proofs.Flattening
import Wei.Proofs.Numerals
