import Wei.Eval.Statement

/-!
Evaluation to a given depth. What a construct does is defined by an evaluator for its parts; so
the evaluator of depth `n + 1` is made from that of depth `n`, and what holds of all evaluators is
shown by going one level deeper.
-/

namespace Wei.Evaluator

/-- The evaluator that may go one level deeper than the one for its parts. -/
def deepen (load : Loader) (rounds : Nat) (parts : Evaluator) : Evaluator where
  expr scope e := parts.evalExpr load scope e
  stmt scope s := parts.evalAction rounds scope s.action
  walk v := parts.iterate v

/-- The evaluator that may go `depth` levels deep. The evaluator of the parts is made when a part
is evaluated. -/
def ofDepth (load : Loader) (rounds : Nat) : Nat → Evaluator
  | 0 => exhausted
  | depth + 1 => {
      expr := fun scope e => (ofDepth load rounds depth).evalExpr load scope e
      stmt := fun scope s => (ofDepth load rounds depth).evalAction rounds scope s.action
      walk := fun v => (ofDepth load rounds depth).iterate v }

theorem ofDepth_zero (load : Loader) (rounds : Nat) : ofDepth load rounds 0 = exhausted := rfl

theorem ofDepth_succ (load : Loader) (rounds depth : Nat) :
    ofDepth load rounds (depth + 1) = deepen load rounds (ofDepth load rounds depth) := rfl

end Wei.Evaluator
