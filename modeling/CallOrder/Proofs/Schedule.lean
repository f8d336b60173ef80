import CallOrder.Proofs.Questions

/-!
Walks that are under way at the same time. Main statements: how they are scheduled has no influence
on a verdict, and where some of them fail, any of their failures may be the one that is told.
-/

namespace CallOrder

namespace Schedule

variable {schedule : Schedule} {base : Base} {bases : List Base}

theorem mem_arrange : base ∈ schedule.arrange bases ↔ base ∈ bases :=
  (schedule.perm bases).mem_iff

/-- The walk on `base` is the first to end. -/
def favouring (base : Base) : Schedule where
  arrange bases := if base ∈ bases then base :: bases.erase base else bases
  perm bases := by
    split
    · rename_i present
      exact (List.perm_cons_erase present).symm
    · exact .refl bases

theorem favouring_arrange (present : base ∈ bases) :
    (favouring base).arrange bases = base :: bases.erase base :=
  if_pos present

end Schedule

namespace Ordered

variable {q : Queries} {rule : Ordered} {dfa : Dfa} {info : Rule} {reportPassing : Bool}
  {operations : OperationTable} {schedule : Schedule} {bases : List Base}
  {found : List Finding}

theorem walkTogether_eq_ok_iff :
    walkTogether dfa info reportPassing operations q schedule bases = .ok found ↔
      walkAll dfa info reportPassing operations q bases = .ok found := by
  rw [walkTogether]
  cases failed : (schedule.arrange bases).findSome? fun base =>
      error? (q.traceOf base operations) with
  | none => exact Iff.rfl
  | some e =>
      -- then the walks in turn fail as well
      obtain ⟨base, present, fails⟩ := List.exists_of_findSome?_eq_some failed
      constructor
      · intro done
        cases done
      · intro done
        have answered := (walkAll_ends dfa info reportPassing bases).ok_iff.mp ⟨found, done⟩
          (.calls base operations) (List.mem_map_of_mem (Schedule.mem_arrange.mp present))
        rw [Queries.failure?, fails] at answered
        cases answered

theorem walkTogether_ends (schedule : Schedule) (bases : List Base) :
    q.Ends ((schedule.arrange bases).map (.calls · operations))
      (walkTogether dfa info reportPassing operations q schedule bases) := by
  rw [walkTogether]
  cases failed : (schedule.arrange bases).findSome? fun base =>
      error? (q.traceOf base operations) with
  | some e =>
      apply Queries.Ends.failed
      rw [List.findSome?_map]
      exact failed
  | none =>
      have answered := List.findSome?_eq_none_iff.mp failed
      apply (walkAll_ends dfa info reportPassing bases).congr
      rw [List.findSome?_map, List.findSome?_map]
      refine failed.trans (List.findSome?_eq_none_iff.mpr ?_).symm
      intro base present
      exact answered base (Schedule.mem_arrange.mpr present)

/-- Whichever walk fails, its failure is told under some schedule. -/
theorem exists_walkTogether_eq_error_iff (e : QueryError) :
    (∃ schedule, walkTogether dfa info reportPassing operations q schedule bases =
      .error (.query e)) ↔ ∃ base ∈ bases, q.traceOf base operations = .error e := by
  constructor
  · intro told
    obtain ⟨schedule, told⟩ := told
    have failed := ((walkTogether_ends schedule bases).error_iff e).mp told
    rw [List.findSome?_map] at failed
    obtain ⟨base, present, fails⟩ := List.exists_of_findSome?_eq_some failed
    exact ⟨base, Schedule.mem_arrange.mp present, error?_eq_some_iff.mp fails⟩
  · intro fails
    obtain ⟨base, present, fails⟩ := fails
    refine ⟨.favouring base, ((walkTogether_ends _ bases).error_iff e).mpr ?_⟩
    rw [Schedule.favouring_arrange present, List.map_cons, List.findSome?_cons]
    rw [Queries.failure?, fails, error?]

theorem walkBases_eq_ok_iff :
    rule.walkBases dfa info operations q schedule bases = .ok found ↔
      walkAll dfa info rule.settings.reportPassing operations q bases = .ok found := by
  rw [walkBases]
  split
  · exact walkTogether_eq_ok_iff
  · exact Iff.rfl

theorem walkBases_recorded (program : Program) :
    rule.walkBases dfa info operations program.queries schedule bases =
      .ok (bases.flatMap (findingsOn dfa info rule.settings.reportPassing operations program)) :=
  walkBases_eq_ok_iff.mpr (walkAll_eq info rule.settings.reportPassing bases)

theorem judgeBy_eq_ok_iff (context : Context) (verdict : Verdict) :
    rule.judgeBy dfa context q schedule = .ok verdict ↔
      rule.judgeBy dfa context q = .ok verdict := by
  apply bind_eq_ok_congr (fun _ => Iff.rfl)
  intro _
  apply bind_eq_ok_congr (fun _ => Iff.rfl)
  intro bases
  split
  · exact Iff.rfl
  · apply bind_eq_ok_congr _ (fun _ => Iff.rfl)
    intro found
    rw [walkBases_eq_ok_iff, walkBases_eq_ok_iff]

theorem judge_eq_of_walkBases {cache : Option Cache} {context : Context}
    (same : ∀ dfa bases,
      rule.walkBases dfa context.rule (rule.operations context) q schedule bases =
        rule.walkBases dfa context.rule (rule.operations context) q .inOrder bases) :
    (Check.ordered rule cache).judge context q schedule =
      (Check.ordered rule cache).judge context q := by
  rw [Check.judge_ordered, Check.judge_ordered]
  refine bind_congr fun dfa => ?_
  rw [judgeBy, judgeBy]
  refine bind_congr fun _ => bind_congr fun bases => ?_
  rw [same]

end Ordered

namespace Check

variable {context : Context} {q : Queries} {schedule : Schedule}

theorem judge_sequential {rule : Ordered} (sequential : rule.settings.parallelBases = false)
    (cache : Option Cache) :
    (ordered rule cache).judge context q schedule = (ordered rule cache).judge context q := by
  apply Ordered.judge_eq_of_walkBases
  intro dfa bases
  rw [Ordered.walkBases, Ordered.walkBases, sequential]
  rfl

theorem judge_recorded (check : Check) (program : Program) :
    check.judge context program.queries schedule = check.judge context program.queries := by
  cases check with
  | ordered rule cache =>
      apply Ordered.judge_eq_of_walkBases
      intro dfa bases
      rw [Ordered.walkBases_recorded, Ordered.walkBases_recorded]
  | follows | precedes | only | never => rfl

theorem judge_eq_ok_iff (check : Check) (verdict : Verdict) :
    check.judge context q schedule = .ok verdict ↔ check.judge context q = .ok verdict := by
  cases check with
  | ordered rule cache =>
      rw [judge_ordered, judge_ordered]
      apply bind_eq_ok_congr (fun _ => Iff.rfl)
      intro dfa
      exact Ordered.judgeBy_eq_ok_iff context verdict
  | follows | precedes | only | never => exact Iff.rfl

end Check

end CallOrder
