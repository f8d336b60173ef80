import CallOrder.Check.Relation

/-!
The rule that listed calls do not occur.
-/

namespace CallOrder

structure Never where
  ops : List Operation
  reportPassing : Bool
  deriving DecidableEq, Repr

namespace Never

def title : String := "never"

def violation (rule : Never) (info : Rule) (arena : Arena) (id : OccurrenceId) : Finding :=
  let reason := info.failText ("Calls to " ++ describe rule.ops ++ " are not allowed.")
  let message := "Violation against rule: \"" ++ arena.codeOf id ++ "\". " ++ reason
  (Finding.failure .forbiddenCall info message).locatedAt id

def compliance (rule : Never) (info : Rule) (arena : Arena) (id : OccurrenceId) : Finding :=
  let reason := info.passText
    ("No calls to " ++ describe rule.ops ++ " found which is in compliance with rule.")
  let message := "Complies with rule: \"" ++ arena.codeOf id ++ "\". " ++ reason
  (Finding.success info message).locatedAt id

def judge (rule : Never) (context : Context) (q : Queries) : Except Error Verdict := do
  let violating ← q.fitting rule.ops
  let all ← q.targeted rule.ops
  let violations := violating.toList.map (rule.violation context.rule q.arena)
  let passes := if rule.reportPassing then
      (all.toList.filter (!violating.contains ·)).map (rule.compliance context.rule q.arena)
    else []
  return .ofFindings (violations ++ passes)

end Never

end CallOrder
