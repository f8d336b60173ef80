import CallOrder.Automaton.Fragment

/-!
From a pattern to a nondeterministic automaton, one fragment for each part of the pattern. A chain
of sequences or of alternatives is one level with all its operands, however it is nested.
-/

namespace CallOrder

namespace Fragment

def nested (limits : Limits) (work : Work Fragment) : Work Fragment := fun bench =>
  if bench.depth < limits.maxDepth then
    let (result, after) := work { bench with depth := bench.depth + 1 }
    (result, { after with depth := after.depth - 1 })
  else (.error (.specification (.tooDeep limits.maxDepth)), bench)

def checkBound (limits : Limits) (kind : Quantifier) (bound : Nat) : Work Unit :=
  if bound ≤ limits.maxBound then return ()
  else throw (.specification (.boundTooLarge kind bound limits.maxBound))

/-- `child` repeated. A copy of it is made for every repetition that the bound counts. -/
def repeated (limits : Limits) (child : Work Fragment) (kind : Quantifier) (bound : Option Bound) :
    Work Fragment :=
  match kind, bound with
  | .maybe, none | .option, none => do
    optional limits (← child)
  | .maybe, some _ | .option, some _ => throw (.specification (.unexpectedBound kind))
  | .exactly, some (.count n) => do
    checkBound limits kind n
    orElse (← appendTimes child n none) (single limits none)
  | .atLeast, some (.count n) => do
    checkBound limits kind n
    let before ← appendTimes child n none
    append before (← star limits (← child))
  | .between, some (.range min max) => do
    if max < min then throw (.specification (.reversedRange min max))
    checkBound limits kind max
    let before ← appendTimes child min none
    let more : Work Fragment := do optional limits (← child)
    orElse (← appendTimes more (max - min) before) (single limits none)
  | .exactly, none | .between, none | .atLeast, none => throw (.construction (.missingBound kind))
  | .exactly, some bound | .between, some bound | .atLeast, some bound =>
    throw (.specification (.unsuitableBound kind bound))

end Fragment

/-- How a pattern is built, by where it stands. -/
structure Plan where
  /-- As a whole. -/
  whole : Work Fragment
  /-- As operands of a sequence that it is part of. -/
  inSequence : List (Work Fragment)
  /-- As operands of an alternative that it is part of. -/
  inAlternative : List (Work Fragment)

namespace Plan

def single (work : Work Fragment) : Plan := ⟨work, [work], [work]⟩

end Plan

namespace Pattern

def plan (limits : Limits) : Pattern → Plan
  | terminal _ token => .single (Fragment.nested limits (Fragment.single limits (some token)))
  | sequence left right =>
    let operands := (left.plan limits).inSequence ++ (right.plan limits).inSequence
    let whole := Fragment.nested limits do
      Fragment.orElse (← Fragment.appendAll operands none) (throw (.construction .emptyGroup))
    { Plan.single whole with inSequence := operands }
  | alternative left right =>
    let operands := (left.plan limits).inAlternative ++ (right.plan limits).inAlternative
    let whole := Fragment.nested limits do
      Fragment.orElse (← Fragment.unionAll limits operands none) (throw (.construction .emptyGroup))
    { Plan.single whole with inAlternative := operands }
  | quantified child kind bound =>
    .single (Fragment.nested limits
      (Fragment.repeated limits (child.plan limits).whole kind bound))

def build (limits : Limits) (p : Pattern) : Work Fragment := (p.plan limits).whole

def toNfa (limits : Limits) (p : Pattern) : Except Error Nfa :=
  match p.build limits ⟨.empty, 0⟩ with
  | (.ok whole, bench) => .ok { bench.nfa with start := whole.start, accept := whole.accept }
  | (.error e, _) => .error e

end Pattern

end CallOrder
