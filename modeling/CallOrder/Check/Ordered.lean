import CallOrder.Compilation
import CallOrder.Context
import CallOrder.Order
import CallOrder.Queries
import CallOrder.Settings.Basic
import CallOrder.Walk

/-!
The rule that the calls on every base follow an order.
-/

namespace CallOrder

inductive BaseSelection where
  | explicit (bases : List Base)
  /-- The bases of the calls that a token stands for. -/
  | ofToken (token : Token)
  | all
  deriving DecidableEq, Repr

/-- In which order of time the walks on several bases come to their ends. -/
structure Schedule where
  arrange : List Base → List Base
  perm : ∀ bases, (arrange bases).Perm bases

def Schedule.inOrder : Schedule where
  arrange bases := bases
  perm bases := .refl bases

structure Ordered where
  order : Order
  selection : BaseSelection
  settings : Settings
  deriving DecidableEq, Repr

namespace Ordered

def title : String := "order"

/-- What the tokens stand for: the order's own operations win over those of the context. -/
def operations (rule : Ordered) (context : Context) : OperationTable :=
  context.operations.insertMany rule.order.operations.toList

def checkBound (root : Pattern) (operations : OperationTable) : Except Error Unit :=
  match root.tokens.toList.find? (!operations.contains ·) with
  | some token => .error (.specification (.unboundToken token))
  | none => .ok ()

def selectedBases (selection : BaseSelection) (operations : OperationTable) (q : Queries) :
    Except Error (List Base) :=
  match selection with
  | .explicit bases => .ok bases
  | .all => .ok q.arena.bases.toList
  | .ofToken token =>
    match operations[token]? with
    | none => .error (.specification (.unboundSelector token))
    | some op =>
      match q.resolveFitting op with
      | .error e => .error (.query e)
      | .ok ids =>
        .ok (Std.ExtTreeSet.ofList
          (ids.toList.filterMap fun id => (q.arena.get? id).bind (·.base))).toList

def walkAll (dfa : Dfa) (info : Rule) (reportPassing : Bool) (operations : OperationTable)
    (q : Queries) : List Base → Except Error (List Finding)
  | [] => .ok []
  | base :: bases =>
    match q.traceOf base operations with
    | .error e => .error (.query e)
    | .ok trace => do
      let rest ← walkAll dfa info reportPassing operations q bases
      return (dfa.walk info reportPassing q.arena trace).findings ++ rest

/-- Walks at the same time are given up by the failure that comes first in time. Where all of them
come to their ends, what they find is put together in the order of the bases. -/
def walkTogether (dfa : Dfa) (info : Rule) (reportPassing : Bool) (operations : OperationTable)
    (q : Queries) (schedule : Schedule) (bases : List Base) : Except Error (List Finding) :=
  match (schedule.arrange bases).findSome? fun base => error? (q.traceOf base operations) with
  | some e => .error (.query e)
  | none => walkAll dfa info reportPassing operations q bases

theorem walkTogether_inOrder (dfa : Dfa) (info : Rule) (reportPassing : Bool)
    (operations : OperationTable) (q : Queries) (bases : List Base) :
    walkTogether dfa info reportPassing operations q .inOrder bases =
      walkAll dfa info reportPassing operations q bases := by
  induction bases with
  | nil => rfl
  | cons base bases ih =>
      rw [walkTogether, Schedule.inOrder] at ih ⊢
      rw [List.findSome?_cons, walkAll]
      cases answer : q.traceOf base operations with
      | error e => rfl
      | ok trace =>
          -- a failure of the bases behind this one is what their walks end with
          cases failed : bases.findSome? fun base => error? (q.traceOf base operations) with
          | none => rfl
          | some e =>
              rw [failed] at ih
              rw [← ih]
              rfl

def walkBases (rule : Ordered) (dfa : Dfa) (info : Rule) (operations : OperationTable)
    (q : Queries) (schedule : Schedule) (bases : List Base) : Except Error (List Finding) :=
  if rule.settings.parallelBases then
    walkTogether dfa info rule.settings.reportPassing operations q schedule bases
  else walkAll dfa info rule.settings.reportPassing operations q bases

theorem walkBases_inOrder (rule : Ordered) (dfa : Dfa) (info : Rule) (operations : OperationTable)
    (q : Queries) (bases : List Base) :
    rule.walkBases dfa info operations q .inOrder bases =
      walkAll dfa info rule.settings.reportPassing operations q bases := by
  rw [walkBases, walkTogether_inOrder, ite_self]

def judgeBy (rule : Ordered) (dfa : Dfa) (context : Context) (q : Queries)
    (schedule : Schedule := .inOrder) : Except Error Verdict := do
  let operations := rule.operations context
  checkBound rule.order.root operations
  let bases ← selectedBases rule.selection operations q
  if bases.isEmpty then
    return .ofFindings
      [.inapplicable context.rule "No instances found to check the order rule on."]
  else
    return .ofFindings (← rule.walkBases dfa context.rule operations q schedule bases)

def judge (rule : Ordered) (context : Context) (q : Queries) (schedule : Schedule := .inOrder) :
    Except Error Verdict := do
  rule.judgeBy (← rule.order.root.compile rule.settings.limits) context q schedule

/-- The verdict by an automaton from the cache, whose limits hold in place of the settings'. -/
def judgeCached (rule : Ordered) (cache : Cache) (context : Context) (q : Queries)
    (schedule : Schedule := .inOrder) : Except Error Verdict × Cache :=
  match cache.compile rule.order.root with
  | (.ok dfa, cache) => (rule.judgeBy dfa context q schedule, cache)
  | (.error e, cache) => (.error e, cache)

end Ordered

end CallOrder
