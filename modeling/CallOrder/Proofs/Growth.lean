import CallOrder.Proofs.Failures
import CallOrder.Proofs.OwnBindings
import CallOrder.Proofs.Recording

/-!
Rules on a program that grows. Main statement: more flow can only take failures away from the rules
that ask for paths and has no part in anything else, and a further call makes such a rule fail
nowhere else unless it needs a partner itself.
-/

namespace CallOrder

/-! Rules that ask for no paths have the same verdict on programs with the same calls. -/

section SameArena

variable {p q : Program} (same : q.arena = p.arena) (context : Context)

include same

theorem Program.queries_of_arena :
    q.queries = { p.queries with reachable := q.queries.reachable } := by
  cases p
  cases q
  cases same
  rfl

theorem Only.judge_of_arena (rule : Only) :
    rule.judge context q.queries = rule.judge context p.queries := by
  rw [Program.queries_of_arena same]
  rfl

theorem Never.judge_of_arena (rule : Never) :
    rule.judge context q.queries = rule.judge context p.queries := by
  rw [Program.queries_of_arena same]
  rfl

theorem Ordered.judge_of_arena (rule : Ordered) (cache : Option Cache) :
    (Check.ordered rule cache).judge context q.queries =
      (Check.ordered rule cache).judge context p.queries := by
  have calls := Program.sameCalls_of_arena same
  have answers : p.queries.SameOn (fun _ => True) q.queries :=
    ⟨same, funext calls.resolveFitting, fun base table _ => calls.traceOf base table⟩
  exact judge_congr rfl rfl answers trivial cache

end SameArena

namespace Program

variable {additions more : List Addition} {source target id : OccurrenceId} {o : Occurrence}
  {ops : List Operation}

theorem Recorded.grow (recorded : Recorded additions source target) :
    Recorded (additions ++ more) source target := by
  rcases recorded with ⟨before, addition, after, rfl, records⟩
  exact ⟨before, addition, after ++ more, by simp, records⟩

theorem FlowsTo.grow (flows : FlowsTo additions source target) :
    FlowsTo (additions ++ more) source target :=
  Relation.TransGen.mono (fun _ _ => Recorded.grow) source target flows

theorem get?_append_iff : (ofAdditions (additions ++ more)).arena.get? id = some o ↔
    (ofAdditions additions).arena.get? id = some o ∨
      (occurrencesOf additions).length ≤ id ∧
        (occurrencesOf more)[id - (occurrencesOf additions).length]? = some o := by
  rw [get?_ofAdditions, get?_ofAdditions, occurrencesOf_append, List.getElem?_append]
  split
  case isTrue known => simp [Nat.not_le_of_lt known]
  case isFalse new => simp [Nat.le_of_not_lt new]

theorem matching_grow (matching : (ofAdditions additions).arena.Matching ops id) :
    (ofAdditions (additions ++ more)).arena.Matching ops id := by
  rcases matching with ⟨op, listed, o, found, fits⟩
  exact ⟨op, listed, o, get?_append_iff.mpr (Or.inl found), fits⟩

theorem matching_of_grow (unmatched : ∀ o ∈ occurrencesOf more, ∀ op ∈ ops, ¬ o.Matches op)
    (matching : (ofAdditions (additions ++ more)).arena.Matching ops id) :
    (ofAdditions additions).arena.Matching ops id := by
  rcases matching with ⟨op, listed, o, found, fits⟩
  rcases get?_append_iff.mp found with known | ⟨_, new⟩
  · exact ⟨op, listed, o, known, fits⟩
  · exact absurd fits (unmatched o (List.mem_of_getElem? new) op listed)

variable (context : Context)

theorem follows_grow (rule : Follows)
    (unmatched : ∀ o ∈ occurrencesOf more, ∀ op ∈ rule.ifOps, ¬ o.Matches op) :
    FailsWithin (rule.judge context (ofAdditions (additions ++ more)).queries)
      (rule.judge context (ofAdditions additions).queries) := by
  apply (rule.failsAt context (additions ++ more)).within (rule.failsAt context additions)
  exact Arena.unpaired_subset (fun _ => matching_of_grow unmatched) (fun _ => matching_grow)
    fun _ _ => FlowsTo.grow

theorem precedes_grow (rule : Precedes)
    (unmatched : ∀ o ∈ occurrencesOf more, ∀ op ∈ rule.thisOps, ¬ o.Matches op) :
    FailsWithin (rule.judge context (ofAdditions (additions ++ more)).queries)
      (rule.judge context (ofAdditions additions).queries) := by
  apply (rule.failsAt context (additions ++ more)).within (rule.failsAt context additions)
  exact Arena.unpaired_subset (fun _ => matching_of_grow unmatched) (fun _ => matching_grow)
    fun _ _ => FlowsTo.grow

/-- Whatever has been recorded, a step of the flow that is recorded besides makes no rule fail
anywhere else: the rules that ask for paths fail where they did or at fewer places, and all others
have the verdict that they had. Nor do any further calls with any further flow make such a rule fail
anywhere else, as long as none of them needs a partner by it. -/
theorem growth_confined (additions : List Addition) (context : Context) :
    (∀ source target grown, (ofAdditions additions).addFlow source target = .ok grown →
      (∀ rule : Follows, FailsWithin (rule.judge context grown.queries)
        (rule.judge context (ofAdditions additions).queries)) ∧
      (∀ rule : Precedes, FailsWithin (rule.judge context grown.queries)
        (rule.judge context (ofAdditions additions).queries)) ∧
      (∀ rule cache, (Check.ordered rule cache).judge context grown.queries =
        (Check.ordered rule cache).judge context (ofAdditions additions).queries) ∧
      (∀ rule : Only, rule.judge context grown.queries =
        rule.judge context (ofAdditions additions).queries) ∧
      (∀ rule : Never, rule.judge context grown.queries =
        rule.judge context (ofAdditions additions).queries) ∧
      (ofAdditions additions).SameCalls grown) ∧
    ∀ more : List Addition,
      (∀ rule : Follows, (∀ o ∈ occurrencesOf more, ∀ op ∈ rule.ifOps, ¬ o.Matches op) →
        FailsWithin (rule.judge context (ofAdditions (additions ++ more)).queries)
          (rule.judge context (ofAdditions additions).queries)) ∧
      ∀ rule : Precedes, (∀ o ∈ occurrencesOf more, ∀ op ∈ rule.thisOps, ¬ o.Matches op) →
        FailsWithin (rule.judge context (ofAdditions (additions ++ more)).queries)
          (rule.judge context (ofAdditions additions).queries) := by
  constructor
  · intro source target grown added
    have arena : grown.arena = (ofAdditions additions).arena := (widens_of_addFlow added).arena
    have next : ofAdditions (additions ++ [.flow source target]) = grown := by
      rw [ofAdditions_append, add, added]
      rfl
    have callsNothing : ∀ ops : List Operation, ∀ o ∈ occurrencesOf [.flow source target],
        ∀ op ∈ ops, ¬ o.Matches op := by
      intro ops o present
      cases present
    refine ⟨?_, ?_, Ordered.judge_of_arena arena context, Only.judge_of_arena arena context,
      Never.judge_of_arena arena context, sameCalls_of_arena arena⟩
    · intro rule
      exact next ▸ follows_grow context rule (callsNothing rule.ifOps)
    · intro rule
      exact next ▸ precedes_grow context rule (callsNothing rule.thisOps)
  · intro more
    exact ⟨follows_grow context, precedes_grow context⟩

def locked (base : Base) : Occurrence := ⟨"lock", base ++ ".lock()", "", .zero, some base, 0, []⟩

def unlocked (base : Base) : Occurrence :=
  ⟨"unlock", base ++ ".unlock()", "", .zero, some base, 1, []⟩

def locks : List Addition :=
  [.occurrence (locked "m"), .occurrence (locked "n"), .occurrence (unlocked "m")]

def released : Follows := ⟨[.any "lock"], [.any "unlock"], false⟩

def acquired : Precedes := ⟨[.any "lock"], [.any "unlock"], false⟩

/-- Both locks are released nowhere and acquired nowhere at first. The flow from the first one to
its release mends it. A release of the second one mends that one, and a lock that is acquired before
the release mends the release. -/
theorem locks_grow : ∃ grown, (ofAdditions locks).addFlow 0 2 = .ok grown ∧
    FailsWithin (released.judge (.ofRule .unnamed) grown.queries)
      (released.judge (.ofRule .unnamed) (ofAdditions locks).queries) ∧
    failurePlaces (released.judge (.ofRule .unnamed) (ofAdditions locks).queries) =
      some [some 0, some 1] ∧
    failurePlaces (released.judge (.ofRule .unnamed) grown.queries) = some [some 1] ∧
    FailsWithin
      (released.judge (.ofRule .unnamed)
        (ofAdditions (locks ++ [.occurrence (unlocked "n"), .flow 1 3])).queries)
      (released.judge (.ofRule .unnamed) (ofAdditions locks).queries) ∧
    failurePlaces (released.judge (.ofRule .unnamed)
      (ofAdditions (locks ++ [.occurrence (unlocked "n"), .flow 1 3])).queries) =
        some [some 0] ∧
    FailsWithin
      (acquired.judge (.ofRule .unnamed)
        (ofAdditions (locks ++ [.occurrence (locked "m"), .chain [3, 2]])).queries)
      (acquired.judge (.ofRule .unnamed) (ofAdditions locks).queries) ∧
    failurePlaces (acquired.judge (.ofRule .unnamed) (ofAdditions locks).queries) = some [some 2] := by
  rcases growth_confined locks (.ofRule .unnamed) with ⟨flow, calls⟩
  have adds : ∃ grown, (ofAdditions locks).addFlow 0 2 = .ok grown := ⟨_, rfl⟩
  rcases adds with ⟨grown, added⟩
  have release : ∀ o ∈ occurrencesOf [.occurrence (unlocked "n"), .flow 1 3],
      ∀ op ∈ released.ifOps, ¬ o.Matches op := by
    simp only [← Occurrence.fits_iff]
    decide +kernel
  have lock : ∀ o ∈ occurrencesOf [.occurrence (locked "m"), .chain [3, 2]],
      ∀ op ∈ acquired.thisOps, ¬ o.Matches op := by
    simp only [← Occurrence.fits_iff]
    decide +kernel
  have mended : failurePlaces (released.judge (.ofRule .unnamed) grown.queries) = some [some 1] := by
    cases added
    decide +kernel
  exact ⟨grown, added, (flow 0 2 grown added).1 released, by decide +kernel, mended,
    (calls _).1 released release, by decide +kernel, (calls _).2 acquired lock, by decide +kernel⟩

end Program

end CallOrder
