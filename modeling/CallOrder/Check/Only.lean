import CallOrder.Check.Relation

/-!
The rule that listed targets are called with listed arguments only.
-/

namespace CallOrder

structure Only where
  ops : List Operation
  reportPassing : Bool
  deriving DecidableEq, Repr

namespace Only

def title : String := "only"

def violation (rule : Only) (info : Rule) (arena : Arena) (id : OccurrenceId) : Finding :=
  let reason := info.failText ("Only calls to " ++ describe rule.ops ++ " allowed.")
  let message := "Violation against rule: \"" ++ arena.codeOf id ++ "\". " ++ reason
  (Finding.failure .disallowedSignature info message).locatedAt id

def compliance (info : Rule) (arena : Arena) (id : OccurrenceId) : Finding :=
  let reason := info.passText "Call is in compliance with rule"
  let message := "Complies with rule: \"" ++ arena.codeOf id ++ "\". " ++ reason
  (Finding.success info message).locatedAt id

def judge (rule : Only) (context : Context) (q : Queries) : Except Error Verdict := do
  let correct ← q.fitting rule.ops
  let all ← q.targeted rule.ops
  let wrong := all.toList.filter (!correct.contains ·)
  let violations := wrong.map (rule.violation context.rule q.arena)
  let passes := if rule.reportPassing then correct.toList.map (compliance context.rule q.arena)
    else []
  return ⟨correct == all, violations ++ passes⟩

end Only

end CallOrder
