/-!
The failures that are the host's and not the script's: a tree that no program text stands for, a
file that is no text, a misuse of the diagnostic tools. They end an evaluation at once, no report
keeps them, and no script can tell them apart from not having run.
-/

namespace Wei

/-- Why the host had to give up. -/
inductive Crash where
  /-- A tree was put together that the grammar rules out. -/
  | malformedTree
  /-- A text that was to be a number and is none. -/
  | malformedNumeral
  /-- A literal of a type that the language does not have. -/
  | unsupportedLiteral
  /-- A member of a class outside of a class body, or another statement inside of one. -/
  | misplacedStatement
  /-- An assignment to something that is no place. -/
  | invalidTarget
  /-- The bytes of a file are not UTF-8. -/
  | undecodable
  /-- A text has no UTF-8 form. -/
  | unencodable
  /-- A path with a NUL character. -/
  | embeddedNul
  /-- Two modules under one path. -/
  | duplicateModule
  /-- A traceback was asked for, and there is no fault. -/
  | noFault
  /-- A frame was taken off the empty call stack. -/
  | emptyStack
  /-- A line was given to the top frame of the empty call stack. -/
  | noFrame
  deriving DecidableEq, Repr, Inhabited

end Wei
