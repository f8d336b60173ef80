import CallOrder.Check.Relation

/-!
The rule that after every call of one kind there may come a call of another.
-/

namespace CallOrder

structure Follows where
  ifOps : List Operation
  thenOps : List Operation
  reportPassing : Bool
  deriving DecidableEq, Repr

namespace Follows

def title : String := "follows"

def pairing (rule : Follows) (q : Queries) : Pairing where
  linked := q.reachable
  violation := .unfollowedOccurrence
  success source target := "Complies with rule: \"" ++ q.arena.codeOf source ++
    "\" is followed by \"" ++ q.arena.codeOf target ++ "\"."
  failure source := "Violation against rule in execution path from \"" ++ q.arena.codeOf source ++
    "\". It is not followed by any of these calls: " ++ describe rule.thenOps ++ "."

def judge (rule : Follows) (context : Context) (q : Queries) : Except Error Verdict := do
  let sources ← q.fitting rule.ifOps
  let targets ← q.fitting rule.thenOps
  return .ofFindings
    (← (rule.pairing q).findings context.rule rule.reportPassing targets.toList sources.toList)

end Follows

end CallOrder
