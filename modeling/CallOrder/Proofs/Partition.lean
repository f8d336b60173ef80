import CallOrder.Check.Never
import CallOrder.Check.Only
import CallOrder.Proofs.Pairing
import CallOrder.Proofs.Resolution
import Mathlib.Data.Set.Basic

/-! A rule on what is allowed and the rule that forbids the same divide the calls of the listed
targets between them. -/

namespace CallOrder

/-- Both questions for operations are answered, and what fits an operation has its target. -/
structure Queries.Answers (q : Queries) (targeted fitting : Operation → OccurrenceSet) : Prop where
  resolve : ∀ op, q.resolve op = .ok (targeted op)
  resolveFitting : ∀ op, q.resolveFitting op = .ok (fitting op)
  targeted_of_fitting : ∀ op, ∀ id ∈ fitting op, id ∈ targeted op

def answersTo (answer : Operation → OccurrenceSet) (ops : List Operation) : Set OccurrenceId :=
  {id | ∃ op ∈ ops, id ∈ answer op}

namespace Queries.Answers

variable {q : Queries} {targeted fitting : Operation → OccurrenceSet}

theorem fitting_ok (answers : q.Answers targeted fitting) (ops : List Operation) :
    ∃ found, q.fitting ops = .ok found ∧ ∀ id, id ∈ found ↔ id ∈ answersTo fitting ops := by
  have asked : q.resolveFitting = fun op => .ok (fitting op) := funext answers.resolveFitting
  obtain ⟨found, gathered, members⟩ := gather_ok fitting ops ∅
  rw [← asked] at gathered
  apply Exists.intro found
  apply And.intro gathered
  intro id
  simpa [answersTo] using members id

theorem targeted_ok (answers : q.Answers targeted fitting) (ops : List Operation) :
    ∃ found, q.targeted ops = .ok found ∧ ∀ id, id ∈ found ↔ id ∈ answersTo targeted ops := by
  have asked : q.resolve = fun op => .ok (targeted op) := funext answers.resolve
  obtain ⟨found, gathered, members⟩ := gather_ok targeted (Std.ExtTreeSet.ofList ops).toList ∅
  rw [← asked] at gathered
  apply Exists.intro found
  apply And.intro gathered
  intro id
  simpa [answersTo, Std.ExtTreeSet.mem_ofList, List.contains_iff_mem] using members id

theorem answersTo_subset (answers : q.Answers targeted fitting) (ops : List Operation) :
    answersTo fitting ops ⊆ answersTo targeted ops := by
  rintro id ⟨op, listed, fits⟩
  exact ⟨op, listed, answers.targeted_of_fitting op id fits⟩

end Queries.Answers

theorem Program.queries_answers (p : Program) :
    p.queries.Answers p.resolve p.resolveFitting where
  resolve _ := rfl
  resolveFitting _ := rfl
  targeted_of_fitting := by
    intro op id fits
    rw [resolveFitting, Std.ExtTreeSet.mem_ofList, List.contains_iff_mem, List.mem_filter] at fits
    rw [resolve, Std.ExtTreeSet.mem_ofList, List.contains_iff_mem]
    exact fits.1

/-- There is a failure for each of `failing`, all for one reason, and a pass for each of `passing`,
in the same order. -/
structure Verdict.Reports (v : Verdict) (violation : Violation)
    (failing passing : List OccurrenceId) : Prop where
  failures : v.failures.map (fun f => (f.location, f.violation)) =
    failing.map fun id => (some id, some violation)
  passes : v.passes.map (·.location) = passing.map some

theorem Verdict.Reports.failures_eq_nil_iff {v : Verdict} {violation : Violation}
    {failing passing : List OccurrenceId} (reports : v.Reports violation failing passing) :
    v.failures = [] ↔ failing = [] := by
  rw [← List.map_eq_nil_iff, reports.failures, List.map_eq_nil_iff]

theorem Verdict.Reports.failing_unique {v : Verdict} {violation : Violation}
    {failing passing ids : List OccurrenceId} (reports : v.Reports violation failing passing)
    (failures : v.failures.map (fun f => (f.location, f.violation)) =
      ids.map fun id => (some id, some violation)) : failing = ids := by
  have injective : (fun id : OccurrenceId => (some id, some violation)).Injective := by
    intro first second same
    exact Option.some.inj (congrArg Prod.fst same)
  exact List.map_injective_iff.mpr injective (reports.failures.symm.trans failures)

theorem Verdict.reports_append {violate comply : OccurrenceId → Finding} {violation : Violation}
    (fails : ∀ id, (violate id).kind = .fail) (complies : ∀ id, (comply id).kind = .pass)
    (reason : ∀ id, (violate id).location = some id ∧ (violate id).violation = some violation)
    (place : ∀ id, (comply id).location = some id) (outcome : Bool)
    (failing passing : List OccurrenceId) :
    (⟨outcome, failing.map violate ++ passing.map comply⟩ : Verdict).Reports violation failing
      passing := by
  constructor
  · simp [failures, Finding.isFailure, List.filter_append, List.filter_map, Function.comp_def, fails,
      complies, reason]
  · simp [Verdict.passes, Finding.isPass, List.filter_append, List.filter_map, Function.comp_def,
      fails, complies, place]

def OccurrenceSet.outside (all fitting : OccurrenceSet) : List OccurrenceId :=
  all.toList.filter (!fitting.contains ·)

theorem OccurrenceSet.mem_outside {all fitting : OccurrenceSet} {id : OccurrenceId} :
    id ∈ all.outside fitting ↔ id ∈ all ∧ id ∉ fitting := by
  rw [outside, List.mem_filter, Std.ExtTreeSet.mem_toList, Bool.not_eq_true',
    ← Bool.not_eq_true, Std.ExtTreeSet.contains_iff_mem]

theorem Only.judge_reports (rule : Only) (context : Context) {q : Queries}
    {correct all : OccurrenceSet} (fitting : q.fitting rule.ops = .ok correct)
    (targeted : q.targeted rule.ops = .ok all) :
    ∃ verdict, rule.judge context q = .ok verdict ∧
      verdict.Reports .disallowedSignature (all.outside correct)
        (if rule.reportPassing then correct.toList else []) ∧
      (verdict.outcome = true ↔ correct = all) := by
  have judged : rule.judge context q = .ok ⟨correct == all,
      (all.outside correct).map (rule.violation context.rule q.arena) ++
        (if rule.reportPassing then correct.toList else []).map
          (compliance context.rule q.arena)⟩ := by
    rw [judge, fitting, ok_bind, targeted, ok_bind]
    cases rule.reportPassing <;> rfl
  apply Exists.intro _
  apply And.intro judged
  constructor
  · exact Verdict.reports_append (fun _ => rfl) (fun _ => rfl) (fun _ => ⟨rfl, rfl⟩) (fun _ => rfl)
      _ _ _
  · exact beq_iff_eq

theorem Never.judge_reports (rule : Never) (context : Context) {q : Queries}
    {violating all : OccurrenceSet} (fitting : q.fitting rule.ops = .ok violating)
    (targeted : q.targeted rule.ops = .ok all) :
    ∃ verdict, rule.judge context q = .ok verdict ∧
      verdict.Reports .forbiddenCall violating.toList
        (if rule.reportPassing then all.outside violating else []) ∧
      (verdict.outcome = true ↔ verdict.failures = []) := by
  have judged : rule.judge context q = .ok (.ofFindings
      (violating.toList.map (rule.violation context.rule q.arena) ++
        (if rule.reportPassing then all.outside violating else []).map
          (rule.compliance context.rule q.arena))) := by
    rw [judge, fitting, ok_bind, targeted, ok_bind]
    cases rule.reportPassing <;> rfl
  apply Exists.intro _
  apply And.intro judged
  constructor
  · exact Verdict.reports_append (fun _ => rfl) (fun _ => rfl) (fun _ => ⟨rfl, rfl⟩) (fun _ => rfl)
      _ _ _
  · exact Verdict.outcome_ofFindings_iff _

/-- Two lists without repetition, in increasing order, that make up `whole` together and share
nothing: what is in `part`, and the rest of `whole`. -/
structure Divides (inside outside : List OccurrenceId) (part whole : Set OccurrenceId) : Prop where
  inside_increasing : inside.Pairwise (· < ·)
  outside_increasing : outside.Pairwise (· < ·)
  mem_inside : ∀ id, id ∈ inside ↔ id ∈ part
  mem_outside : ∀ id, id ∈ outside ↔ id ∈ whole \ part
  covered : ∀ id, id ∈ whole ↔ id ∈ outside ∨ id ∈ inside
  disjoint : outside.Disjoint inside

theorem OccurrenceSet.divides {fitting all : OccurrenceSet} {part whole : Set OccurrenceId}
    (isPart : ∀ id, id ∈ fitting ↔ id ∈ part) (isWhole : ∀ id, id ∈ all ↔ id ∈ whole)
    (within : part ⊆ whole) : Divides fitting.toList (all.outside fitting) part whole where
  inside_increasing := fitting.increasing
  outside_increasing := all.increasing.filter _
  mem_inside id := by rw [Std.ExtTreeSet.mem_toList, isPart]
  mem_outside id := by rw [mem_outside, isPart, isWhole, Set.mem_sdiff]
  covered id := by
    rw [mem_outside, Std.ExtTreeSet.mem_toList, isPart, isWhole]
    have inside : id ∈ part → id ∈ whole := fun present => within present
    tauto
  disjoint := by
    intro id outside inside
    exact (mem_outside.mp outside).2 (Std.ExtTreeSet.mem_toList.mp inside)

theorem OccurrenceSet.eq_iff {first second : OccurrenceSet} {firstIds secondIds : Set OccurrenceId}
    (isFirst : ∀ id, id ∈ first ↔ id ∈ firstIds) (isSecond : ∀ id, id ∈ second ↔ id ∈ secondIds) :
    first = second ↔ firstIds = secondIds := by
  rw [Set.ext_iff]
  simp only [← isFirst, ← isSecond]
  exact ⟨fun same id => same ▸ Iff.rfl, fun same => Std.ExtTreeSet.ext_mem same⟩

theorem Divides.outside_eq_nil_iff {inside outside : List OccurrenceId}
    {part whole : Set OccurrenceId} (divides : Divides inside outside part whole)
    (within : part ⊆ whole) : outside = [] ↔ part = whole := by
  rw [List.eq_nil_iff_forall_not_mem, ← Set.sdiff_eq_empty.trans within.ge_iff_eq,
    Set.eq_empty_iff_forall_notMem]
  exact forall_congr' fun id => not_congr (divides.mem_outside id)

/-- Where all questions are answered and what fits has its target, the rule on what is allowed fails
on the calls of the listed targets that do not fit, and the rule on what is forbidden on those that
do; each passes where the other one fails. A recorded program answers so. -/
theorem rules_partition :
    (∀ (q : Queries) (targeted fitting : Operation → OccurrenceSet), q.Answers targeted fitting →
      ∀ (ops : List Operation) (context : Context) (reportAllowed reportAbsent : Bool),
      ∃ (only never : Verdict) (inside outside : List OccurrenceId),
        (⟨ops, reportAllowed⟩ : Only).judge context q = .ok only ∧
        (⟨ops, reportAbsent⟩ : Never).judge context q = .ok never ∧
        Divides inside outside (answersTo fitting ops) (answersTo targeted ops) ∧
        only.Reports .disallowedSignature outside (if reportAllowed then inside else []) ∧
        never.Reports .forbiddenCall inside (if reportAbsent then outside else []) ∧
        (only.outcome = true ↔ only.failures = []) ∧
        (only.failures = [] ↔ answersTo fitting ops = answersTo targeted ops) ∧
        (never.outcome = true ↔ answersTo fitting ops = ∅)) ∧
    ∀ additions : List Program.Addition,
      (Program.ofAdditions additions).queries.Answers (Program.ofAdditions additions).resolve
        (Program.ofAdditions additions).resolveFitting := by
  constructor
  · intro q targeted fitting answers ops context reportAllowed reportAbsent
    obtain ⟨inside, fits, isFitting⟩ := answers.fitting_ok ops
    obtain ⟨all, listed, isTargeted⟩ := answers.targeted_ok ops
    have divides := OccurrenceSet.divides isFitting isTargeted (answers.answersTo_subset ops)
    obtain ⟨only, allowed, onlyReports, onlyOutcome⟩ :=
      Only.judge_reports ⟨ops, reportAllowed⟩ context fits listed
    obtain ⟨never, forbidden, neverReports, neverOutcome⟩ :=
      Never.judge_reports ⟨ops, reportAbsent⟩ context fits listed
    have same := OccurrenceSet.eq_iff isFitting isTargeted
    have nothing := divides.outside_eq_nil_iff (answers.answersTo_subset ops)
    refine ⟨only, never, inside.toList, all.outside inside, allowed, forbidden, divides, onlyReports,
      neverReports, ?_, ?_, ?_⟩
    · rw [onlyOutcome, onlyReports.failures_eq_nil_iff, same, nothing]
    · rw [onlyReports.failures_eq_nil_iff, nothing]
    · rw [neverOutcome, neverReports.failures_eq_nil_iff, List.eq_nil_iff_forall_not_mem,
        Set.eq_empty_iff_forall_notMem]
      exact forall_congr' fun id => not_congr (divides.mem_inside id)
  · intro additions
    exact (Program.ofAdditions additions).queries_answers

def keyCalls : List Program.Addition :=
  [.occurrence ⟨"get", "get(1)", "", .zero, none, 0, [⟨some "1", some "Int"⟩]⟩,
    .occurrence ⟨"get", "get(2)", "", .zero, none, 1, [⟨some "2", none⟩]⟩,
    .occurrence ⟨"get", "get(key)", "", .zero, none, 2, [⟨none, some "Int"⟩]⟩,
    .occurrence ⟨"put", "put(1)", "", .zero, none, 3, [⟨some "1", some "Int"⟩]⟩]

def keyOperations : List Operation :=
  [⟨"get", some [.value "1"]⟩, ⟨"get", some [.type "Int"]⟩]

theorem keyCalls_partition : ∃ only never,
    (Program.ofAdditions keyCalls).queries.Answers (Program.ofAdditions keyCalls).resolve
      (Program.ofAdditions keyCalls).resolveFitting ∧
    (⟨keyOperations, true⟩ : Only).judge (.ofRule .unnamed)
      (Program.ofAdditions keyCalls).queries = .ok only ∧
    (⟨keyOperations, false⟩ : Never).judge (.ofRule .unnamed)
      (Program.ofAdditions keyCalls).queries = .ok never ∧
    Divides [0, 2] [1] (answersTo (Program.ofAdditions keyCalls).resolveFitting keyOperations)
      (answersTo (Program.ofAdditions keyCalls).resolve keyOperations) ∧
    only.Reports .disallowedSignature [1] [0, 2] ∧ never.Reports .forbiddenCall [0, 2] [] ∧
    only.outcome = false ∧ never.outcome = false := by
  obtain ⟨partition, answers⟩ := rules_partition
  obtain ⟨only, never, inside, outside, allowed, forbidden, divides, onlyReports, neverReports,
      onlyOutcome, _, _⟩ :=
    partition _ _ _ (answers keyCalls) keyOperations (.ofRule .unnamed) true false
  have onlyRuns : ((⟨keyOperations, true⟩ : Only).judge (.ofRule .unnamed)
      (Program.ofAdditions keyCalls).queries).toOption.any
      fun verdict => verdict.failures.map (fun f => (f.location, f.violation)) =
        [1].map fun id => (some id, some .disallowedSignature) := by
    decide +kernel
  have neverRuns : ((⟨keyOperations, false⟩ : Never).judge (.ofRule .unnamed)
      (Program.ofAdditions keyCalls).queries).toOption.any
      fun verdict => verdict.failures.map (fun f => (f.location, f.violation)) =
          [0, 2].map (fun id => (some id, some .forbiddenCall)) ∧
        verdict.outcome = false := by
    decide +kernel
  rw [allowed] at onlyRuns
  rw [forbidden] at neverRuns
  have onlyFails := of_decide_eq_true onlyRuns
  obtain ⟨neverFails, neverFalse⟩ := of_decide_eq_true neverRuns
  have isOutside : outside = [1] := onlyReports.failing_unique onlyFails
  have isInside : inside = [0, 2] := neverReports.failing_unique neverFails
  subst isOutside isInside
  have onlyFalse : only.outcome = false := by
    rw [← Bool.not_eq_true, onlyOutcome, onlyReports.failures_eq_nil_iff]
    exact List.cons_ne_nil 1 []
  exact ⟨only, never, answers keyCalls, allowed, forbidden, divides, onlyReports, neverReports,
    onlyFalse, neverFalse⟩

end CallOrder
