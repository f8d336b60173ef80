import CallOrder.Check.Follows
import CallOrder.Check.Never
import CallOrder.Check.Only
import CallOrder.Check.Ordered
import CallOrder.Check.Precedes

/-!
Checks: rules of all kinds, ready to be judged.
-/

namespace CallOrder

def Ordered.automaton (rule : Ordered) : (cache : Option Cache) → Except Error Dfa
  | none => rule.order.root.compile rule.settings.limits
  | some cache => (cache.compile rule.order.root).1

inductive Check where
  | ordered (rule : Ordered) (cache : Option Cache)
  | follows (rule : Follows)
  | precedes (rule : Precedes)
  | only (rule : Only)
  | never (rule : Never)

namespace Check

def title : Check → String
  | ordered _ _ => Ordered.title
  | follows _ => Follows.title
  | precedes _ => Precedes.title
  | only _ => Only.title
  | never _ => Never.title

/-- Only the walks of an order can be under way at the same time. -/
def judge (check : Check) (context : Context) (q : Queries) (schedule : Schedule := .inOrder) :
    Except Error Verdict :=
  match check with
  | ordered rule none => rule.judge context q schedule
  | ordered rule (some cache) => (rule.judgeCached cache context q schedule).1
  | follows rule => rule.judge context q
  | precedes rule => rule.judge context q
  | only rule => rule.judge context q
  | never rule => rule.judge context q

theorem judge_ordered (rule : Ordered) (cache : Option Cache) (context : Context) (q : Queries)
    (schedule : Schedule) :
    (ordered rule cache).judge context q schedule =
      rule.automaton cache >>= fun dfa => rule.judgeBy dfa context q schedule := by
  cases cache with
  | none => rfl
  | some cache =>
    rw [judge, Ordered.judgeCached, Ordered.automaton]
    rcases cache.compile rule.order.root with ⟨dfa | e, _⟩ <;> rfl

def reportPassing : Check → Bool
  | ordered rule _ => rule.settings.reportPassing
  | follows rule => rule.reportPassing
  | precedes rule => rule.reportPassing
  | only rule => rule.reportPassing
  | never rule => rule.reportPassing

def reporting (check : Check) (passes : Bool) : Check :=
  match check with
  | ordered rule cache =>
    ordered { rule with settings := { rule.settings with reportPassing := passes } } cache
  | follows rule => follows { rule with reportPassing := passes }
  | precedes rule => precedes { rule with reportPassing := passes }
  | only rule => only { rule with reportPassing := passes }
  | never rule => never { rule with reportPassing := passes }

theorem reporting_reportPassing (check : Check) : check.reporting check.reportPassing = check := by
  cases check <;> rfl

end Check

end CallOrder
