import CallOrder.Check.Relation

/-!
The rule that before every call of one kind there may have been a call of another.
-/

namespace CallOrder

structure Precedes where
  prevOps : List Operation
  thisOps : List Operation
  reportPassing : Bool
  deriving DecidableEq, Repr

namespace Precedes

def title : String := "precedes"

def pairing (rule : Precedes) (q : Queries) : Pairing where
  linked target prev := q.reachable prev target
  violation := .unprecededOccurrence
  success target prev := "Complies with rule: \"" ++ q.arena.codeOf prev ++ "\" precedes " ++
    q.arena.codeOf target ++ "."
  failure target := "Violation against rule in execution path to \"" ++ q.arena.codeOf target ++
    "\". It is not preceded by any of these calls: " ++ describe rule.prevOps ++ "."

def judge (rule : Precedes) (context : Context) (q : Queries) : Except Error Verdict := do
  let targets ← q.fitting rule.thisOps
  let predecessors ← q.fitting rule.prevOps
  return .ofFindings
    (← (rule.pairing q).findings context.rule rule.reportPassing predecessors.toList
      targets.toList)

end Precedes

end CallOrder
