import CallOrder.Context
import CallOrder.Finding
import CallOrder.Queries

/-!
What the rules on single operations share: the occurrences they speak of, and the search for a
partner that an occurrence is linked to.
-/

namespace CallOrder

def gather (ask : Operation → Except QueryError OccurrenceSet) :
    (ops : List Operation) → (found : OccurrenceSet) → Except Error OccurrenceSet
  | [], found => .ok found
  | op :: ops, found =>
    match ask op with
    | .ok more => gather ask ops (found.insertMany more.toList)
    | .error e => .error (.query e)

namespace Queries

def fitting (q : Queries) (ops : List Operation) : Except Error OccurrenceSet :=
  gather q.resolveFitting ops ∅

/-- The occurrences with the target of any of `ops`, each of which is asked for once. -/
def targeted (q : Queries) (ops : List Operation) : Except Error OccurrenceSet :=
  gather q.resolve (Std.ExtTreeSet.ofList ops).toList ∅

end Queries

/-- The first candidate that is linked, as long as no question before it fails. -/
def firstLinked (linked : OccurrenceId → Except QueryError Bool) :
    List OccurrenceId → Except Error (Option OccurrenceId)
  | [] => .ok none
  | candidate :: candidates =>
    match linked candidate with
    | .ok true => .ok (some candidate)
    | .ok false => firstLinked linked candidates
    | .error e => .error (.query e)

def describe (ops : List Operation) : String := ", ".intercalate (ops.map Operation.text)

namespace Finding

def locatedAt (f : Finding) (id : OccurrenceId) : Finding := { f with location := some id }

end Finding

/-- A rule by which every subject needs a partner. -/
structure Pairing where
  /-- Whether the subject, first, is linked with the partner, second. -/
  linked : OccurrenceId → OccurrenceId → Except QueryError Bool
  violation : Violation
  success : OccurrenceId → OccurrenceId → String
  failure : OccurrenceId → String

namespace Pairing

def findings (p : Pairing) (rule : Rule) (reportPassing : Bool) (partners : List OccurrenceId) :
    (subjects : List OccurrenceId) → Except Error (List Finding)
  | [] => .ok []
  | subject :: subjects => do
    let partner ← firstLinked (p.linked subject) partners
    let rest ← p.findings rule reportPassing partners subjects
    match partner with
    | some partner =>
      if reportPassing then
        let found := Finding.success rule (rule.passText (p.success subject partner))
        return { found.locatedAt subject with related := [partner] } :: rest
      else return rest
    | none =>
      let found := Finding.failure p.violation rule (rule.failText (p.failure subject))
      return found.locatedAt subject :: rest

end Pairing

end CallOrder
