import CallOrder.Arena
import CallOrder.Error
import CallOrder.Trace

/-!
The questions that rules ask about a program. Every question but the one for the arena may fail.
-/

namespace CallOrder

abbrev OccurrenceSet := Std.ExtTreeSet OccurrenceId

structure Queries where
  arena : Arena
  /-- The occurrences with the target of an operation. -/
  resolve : Operation → Except QueryError OccurrenceSet
  /-- The occurrences that fit an operation. -/
  resolveFitting : Operation → Except QueryError OccurrenceSet
  /-- Whether the second occurrence may run after the first. -/
  reachable : OccurrenceId → OccurrenceId → Except QueryError Bool
  /-- The calls on a base that the table has tokens for. -/
  traceOf : Base → OperationTable → Except QueryError Trace

namespace Queries

def none : Queries where
  arena := .empty
  resolve _ := .ok ∅
  resolveFitting _ := .ok ∅
  reachable _ _ := .ok false
  traceOf base _ := .ok (.empty base)

end Queries

end CallOrder
