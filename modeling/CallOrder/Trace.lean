import CallOrder.Occurrence

/-!
Traces: the calls on one base, in order, each under the token that it counts as.
-/

namespace CallOrder

structure TraceStep where
  occurrence : OccurrenceId
  token : Token
  position : Nat
  deriving DecidableEq, Repr

structure Trace where
  base : Base
  steps : List TraceStep
  deriving DecidableEq, Repr

namespace TraceStep

/-- Puts a step behind all that stand at the same position or before it. -/
def insert (step : TraceStep) : List TraceStep → List TraceStep
  | [] => [step]
  | other :: others =>
    if other.position ≤ step.position then other :: insert step others
    else step :: other :: others

end TraceStep

namespace Trace

def empty (base : Base) : Trace := ⟨base, []⟩

def tokens (t : Trace) : List Token := t.steps.map (·.token)

def occurrences (t : Trace) : List OccurrenceId := t.steps.map (·.occurrence)

def others (t : Trace) (id : OccurrenceId) : List OccurrenceId := t.occurrences.filter (· != id)

end Trace

end CallOrder
