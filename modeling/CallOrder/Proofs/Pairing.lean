import CallOrder.Check.Follows
import CallOrder.Check.Precedes
import CallOrder.Proofs.Resolution
import Mathlib.Order.Bounds.Defs
import Mathlib.Tactic.Choose

/-!
Rules by which every subject needs a partner. What such a rule finds is exact: a failure for each
subject without a partner, and for each other subject, where passes are reported, its first partner.
-/

namespace CallOrder

def IsFirst (Partner : OccurrenceId → Prop) : (found : Option OccurrenceId) → Prop
  | some id => IsLeast {partner | Partner partner} id
  | none => ∀ partner, ¬ Partner partner

theorem IsFirst.eq_none_iff {Partner : OccurrenceId → Prop} {found : Option OccurrenceId}
    (first : IsFirst Partner found) : found = none ↔ ∀ partner, ¬ Partner partner := by
  cases found with
  | none => exact ⟨fun _ => first, fun _ => rfl⟩
  | some id => simpa using ⟨id, first.1⟩

theorem IsFirst.eq_some_iff {Partner : OccurrenceId → Prop} {found : Option OccurrenceId}
    (first : IsFirst Partner found) (id : OccurrenceId) :
    found = some id ↔ IsLeast {partner | Partner partner} id := by
  cases found with
  | none => simpa using fun least : IsLeast {partner | Partner partner} id => first id least.1
  | some other =>
      constructor
      · rintro ⟨⟩
        exact first
      · intro least
        rw [IsLeast.unique first least]

theorem firstLinked_ok {linked : OccurrenceId → Except QueryError Bool}
    {Linked : OccurrenceId → Prop} (candidates : List OccurrenceId)
    (increasing : candidates.Pairwise (· < ·))
    (answers : ∀ candidate ∈ candidates, ∃ answer, linked candidate = .ok answer ∧
      (answer = true ↔ Linked candidate)) :
    ∃ found, firstLinked linked candidates = .ok found ∧
      IsFirst (fun partner => partner ∈ candidates ∧ Linked partner) found := by
  induction candidates with
  | nil => exact ⟨none, rfl, by simp [IsFirst]⟩
  | cons candidate candidates ih =>
      obtain ⟨later, increasing⟩ := List.pairwise_cons.mp increasing
      obtain ⟨answer, asked, meaning⟩ := answers candidate List.mem_cons_self
      rw [firstLinked, asked]
      cases answer with
      | true =>
          -- the candidates that are not asked any more are greater
          refine ⟨some candidate, rfl, ⟨List.mem_cons_self, meaning.mp rfl⟩, ?_⟩
          intro other given
          rcases List.mem_cons.mp given.1 with rfl | present
          · exact le_refl _
          · exact (later other present).le
      | false =>
          obtain ⟨found, rest, first⟩ := ih increasing
            fun other present => answers other (List.mem_cons_of_mem _ present)
          have same : (fun partner => partner ∈ candidate :: candidates ∧ Linked partner) =
              fun partner => partner ∈ candidates ∧ Linked partner := by
            funext partner
            rw [List.mem_cons, or_and_right, eq_iff_iff, or_iff_right]
            rintro ⟨rfl, linked⟩
            exact Bool.false_ne_true (meaning.mpr linked)
          rw [same]
          exact ⟨found, rest, first⟩

namespace Pairing

variable (p : Pairing) (rule : Rule) (reportPassing : Bool)

def finding? (subject : OccurrenceId) : (partner : Option OccurrenceId) → Option Finding
  | some partner =>
    if reportPassing then
      let found := Finding.success rule (rule.passText (p.success subject partner))
      some { found.locatedAt subject with related := [partner] }
    else none
  | none =>
    let found := Finding.failure p.violation rule (rule.failText (p.failure subject))
    some (found.locatedAt subject)

variable {p rule reportPassing} {partners subjects : List OccurrenceId}
  {partner? : OccurrenceId → Option OccurrenceId}

theorem findings_eq
    (asked : ∀ subject ∈ subjects,
      firstLinked (p.linked subject) partners = .ok (partner? subject)) :
    p.findings rule reportPassing partners subjects = .ok (subjects.filterMap fun subject =>
      p.finding? rule reportPassing subject (partner? subject)) := by
  induction subjects with
  | nil => rfl
  | cons subject subjects ih =>
      rw [findings, asked subject List.mem_cons_self, ok_bind,
        ih fun other present => asked other (List.mem_cons_of_mem _ present), ok_bind,
        List.filterMap_cons]
      cases partner? subject with
      | none => rfl
      | some partner => cases reportPassing <;> rfl

theorem failures_findings (subjects : List OccurrenceId) :
    ((subjects.filterMap fun subject =>
      p.finding? rule reportPassing subject (partner? subject)).filter (·.isFailure)).map
        (fun f => (f.location, f.violation)) =
      (subjects.filter fun subject => (partner? subject).isNone).map
        fun subject => (some subject, some p.violation) := by
  induction subjects with
  | nil => rfl
  | cons subject subjects ih =>
      rw [List.filterMap_cons, List.filter_cons]
      cases partner? subject with
      | none => exact congrArg (List.cons _) ih
      | some partner => cases reportPassing <;> exact ih

def passing (reportPassing : Bool) (partner? : OccurrenceId → Option OccurrenceId)
    (subject : OccurrenceId) : Option (OccurrenceId × OccurrenceId) :=
  (partner? subject).bind fun partner => if reportPassing then some (subject, partner) else none

theorem passing_eq_some_iff (subject : OccurrenceId) (pair : OccurrenceId × OccurrenceId) :
    passing reportPassing partner? subject = some pair ↔
      subject = pair.1 ∧ reportPassing = true ∧ partner? subject = some pair.2 := by
  rw [passing, Option.bind_eq_some_iff]
  cases reportPassing with
  | false => simp
  | true =>
      constructor
      · rintro ⟨partner, found, ⟨⟩⟩
        exact ⟨rfl, rfl, found⟩
      · rintro ⟨rfl, _, found⟩
        exact ⟨pair.2, found, rfl⟩

theorem passes_findings (subjects : List OccurrenceId) :
    ((subjects.filterMap fun subject =>
      p.finding? rule reportPassing subject (partner? subject)).filter (·.isPass)).map
        (fun f => (f.location, f.related)) =
      (subjects.filterMap (passing reportPassing partner?)).map
        fun pair => (some pair.1, [pair.2]) := by
  induction subjects with
  | nil => rfl
  | cons subject subjects ih =>
      rw [List.filterMap_cons, List.filterMap_cons, passing]
      cases partner? subject with
      | none => exact ih
      | some partner =>
          cases reportPassing with
          | false => exact ih
          | true => exact congrArg (List.cons _) ih

end Pairing

/-- A verdict by a rule under which every subject needs a partner. It fails on the subjects without
one, in increasing order, and passes, if that is to be reported, on each of the others with the first
of its partners. -/
structure Verdict.Decides (v : Verdict) (violation : Violation) (reportPassing : Bool)
    (Subject : OccurrenceId → Prop) (Partner : OccurrenceId → OccurrenceId → Prop) : Prop where
  outcome : v.outcome = true ↔ ∀ subject, Subject subject → ∃ partner, Partner subject partner
  failures : ∃ ids : List OccurrenceId,
    v.failures.map (fun f => (f.location, f.violation)) =
      ids.map (fun id => (some id, some violation)) ∧
    ids.Pairwise (· < ·) ∧
    ∀ id, id ∈ ids ↔ Subject id ∧ ∀ partner, ¬ Partner id partner
  passes : ∃ pairs : List (OccurrenceId × OccurrenceId),
    v.passes.map (fun f => (f.location, f.related)) =
      pairs.map (fun pair => (some pair.1, [pair.2])) ∧
    pairs.Pairwise (fun first second => first.1 < second.1) ∧
    ∀ id partner, (id, partner) ∈ pairs ↔
      reportPassing = true ∧ Subject id ∧ IsLeast {other | Partner id other} partner

theorem OccurrenceSet.increasing (ids : OccurrenceSet) : ids.toList.Pairwise (· < ·) :=
  ids.ordered_toList.imp compare_lt_iff_lt.mp

theorem Pairing.decides (p : Pairing) (rule : Rule) (reportPassing : Bool)
    {subjects partners : OccurrenceSet} {Linked : OccurrenceId → OccurrenceId → Prop}
    (answers : ∀ subject ∈ subjects, ∀ partner ∈ partners, ∃ answer,
      p.linked subject partner = .ok answer ∧ (answer = true ↔ Linked subject partner)) :
    ∃ findings, p.findings rule reportPassing partners.toList subjects.toList = .ok findings ∧
      (Verdict.ofFindings findings).Decides p.violation reportPassing (· ∈ subjects)
        fun subject partner => partner ∈ partners ∧ Linked subject partner := by
  have asked : ∀ subject ∈ subjects, ∃ found,
      firstLinked (p.linked subject) partners.toList = .ok found ∧
        IsFirst (fun partner => partner ∈ partners ∧ Linked subject partner) found := by
    intro subject present
    have questions : ∀ partner ∈ partners.toList, ∃ answer,
        p.linked subject partner = .ok answer ∧ (answer = true ↔ Linked subject partner) :=
      fun partner member => answers subject present partner (Std.ExtTreeSet.mem_toList.mp member)
    simpa only [Std.ExtTreeSet.mem_toList] using
      firstLinked_ok partners.toList (OccurrenceSet.increasing partners) questions
  choose! partner? found first using asked
  have unpaired : ∀ id, id ∈ subjects.toList.filter (fun id => (partner? id).isNone) ↔
      id ∈ subjects ∧ ∀ partner, ¬ (partner ∈ partners ∧ Linked id partner) := by
    intro id
    rw [List.mem_filter, Std.ExtTreeSet.mem_toList, Option.isNone_iff_eq_none]
    exact and_congr_right fun present => (first id present).eq_none_iff
  refine ⟨_, findings_eq fun subject member => found subject (Std.ExtTreeSet.mem_toList.mp member),
    ?_, ?_, ?_⟩
  · rw [Verdict.outcome_ofFindings_iff, ← List.map_eq_nil_iff, Verdict.failures, Verdict.ofFindings,
      failures_findings, List.map_eq_nil_iff, List.eq_nil_iff_forall_not_mem]
    refine forall_congr' fun id => ?_
    rw [unpaired, not_and, not_forall_not]
  · exact ⟨_, failures_findings subjects.toList, (OccurrenceSet.increasing subjects).filter _,
      unpaired⟩
  · refine ⟨_, passes_findings subjects.toList, ?_, fun id partner => ?_⟩
    · rw [List.pairwise_filterMap]
      refine (OccurrenceSet.increasing subjects).imp ?_
      intro subject later less pair reported other reportedLater
      rw [← ((passing_eq_some_iff subject pair).mp reported).1,
        ← ((passing_eq_some_iff later other).mp reportedLater).1]
      exact less
    · simp only [List.mem_filterMap, passing_eq_some_iff, Std.ExtTreeSet.mem_toList]
      constructor
      · rintro ⟨subject, present, rfl, reports, least⟩
        exact ⟨reports, present, ((first subject present).eq_some_iff partner).mp least⟩
      · rintro ⟨reports, present, least⟩
        exact ⟨id, present, rfl, reports, ((first id present).eq_some_iff partner).mpr least⟩

namespace Program

variable {additions : List Addition}

theorem known_of_matching {ops : List Operation} {id : OccurrenceId}
    (matching : (ofAdditions additions).arena.Matching ops id) :
    id < (occurrencesOf additions).length := by
  obtain ⟨_, _, occurrence, found, _⟩ := matching
  rw [← size_ofAdditions]
  exact Arena.lt_size_of_get? found

theorem pairing_decides (p : Pairing) (rule : Rule) (reportPassing : Bool)
    (subjectOps partnerOps : List Operation) {Linked : OccurrenceId → OccurrenceId → Prop}
    (answers : ∀ subject < (occurrencesOf additions).length,
      ∀ partner < (occurrencesOf additions).length, ∃ answer,
        p.linked subject partner = .ok answer ∧ (answer = true ↔ Linked subject partner)) :
    ∃ subjects partners findings,
      (ofAdditions additions).queries.fitting subjectOps = .ok subjects ∧
      (ofAdditions additions).queries.fitting partnerOps = .ok partners ∧
      p.findings rule reportPassing partners.toList subjects.toList = .ok findings ∧
      (Verdict.ofFindings findings).Decides p.violation reportPassing
        ((ofAdditions additions).arena.Matching subjectOps)
        fun subject partner => (ofAdditions additions).arena.Matching partnerOps partner ∧
          Linked subject partner := by
  obtain ⟨subjects, subjectsFound, isSubject⟩ :=
    fitting_ok (ofAdditions_indexed additions) subjectOps
  obtain ⟨partners, partnersFound, isPartner⟩ :=
    fitting_ok (ofAdditions_indexed additions) partnerOps
  have questions : ∀ subject ∈ subjects, ∀ partner ∈ partners, ∃ answer,
      p.linked subject partner = .ok answer ∧ (answer = true ↔ Linked subject partner) := by
    intro subject present partner member
    exact answers subject (known_of_matching ((isSubject subject).mp present)) partner
      (known_of_matching ((isPartner partner).mp member))
  obtain ⟨findings, found, decides⟩ := p.decides rule reportPassing questions
  simp only [isSubject, isPartner] at decides
  exact ⟨subjects, partners, findings, subjectsFound, partnersFound, found, decides⟩

/-- On every recorded program the two rules are decided by the paths of one or more steps of its
flow: following by those that lead from a call, preceding by those that lead to it. -/
theorem pairings_exact (additions : List Addition) (context : Context) :
    (∀ rule : Follows, ∃ verdict,
      rule.judge context (ofAdditions additions).queries = .ok verdict ∧
      verdict.Decides .unfollowedOccurrence rule.reportPassing
        ((ofAdditions additions).arena.Matching rule.ifOps)
        fun source target => (ofAdditions additions).arena.Matching rule.thenOps target ∧
          FlowsTo additions source target) ∧
    (∀ rule : Precedes, ∃ verdict,
      rule.judge context (ofAdditions additions).queries = .ok verdict ∧
      verdict.Decides .unprecededOccurrence rule.reportPassing
        ((ofAdditions additions).arena.Matching rule.thisOps)
        fun target source => (ofAdditions additions).arena.Matching rule.prevOps source ∧
          FlowsTo additions source target) := by
  constructor
  · intro rule
    obtain ⟨sources, targets, findings, sourcesFound, targetsFound, found, decides⟩ :=
      pairing_decides (rule.pairing (ofAdditions additions).queries) context.rule
        rule.reportPassing rule.ifOps rule.thenOps
        fun source known target knownTarget => reachable_ofAdditions known knownTarget
    refine ⟨.ofFindings findings, ?_, decides⟩
    rw [Follows.judge, sourcesFound, ok_bind, targetsFound, ok_bind, found]
    rfl
  · intro rule
    obtain ⟨targets, sources, findings, targetsFound, sourcesFound, found, decides⟩ :=
      pairing_decides (rule.pairing (ofAdditions additions).queries) context.rule
        rule.reportPassing rule.thisOps rule.prevOps
        fun target known source knownSource => reachable_ofAdditions knownSource known
    refine ⟨.ofFindings findings, ?_, decides⟩
    rw [Precedes.judge, targetsFound, ok_bind, sourcesFound, ok_bind, found]
    rfl

def filesFlow : List Addition :=
  [.occurrence ⟨"open", "f.open()", "", .zero, some "f", 0, []⟩,
    .occurrence ⟨"close", "f.close()", "", .zero, some "f", 1, []⟩,
    .occurrence ⟨"open", "g.open()", "", .zero, some "g", 2, []⟩, .chain [0, 1, 7, 2]]

def closing : Follows := ⟨[.any "open"], [.any "close"], true⟩

theorem filesFlow_judged : ∃ verdict,
    closing.judge (.ofRule .unnamed) (ofAdditions filesFlow).queries = .ok verdict ∧
    verdict.failures.map (fun f => (f.location, f.violation)) =
      [(some 2, some .unfollowedOccurrence)] ∧
    verdict.passes.map (fun f => (f.location, f.related)) = [(some 0, [1])] ∧
    FlowsTo filesFlow 0 1 ∧
    ∀ target, (ofAdditions filesFlow).arena.Matching closing.thenOps target →
      ¬ FlowsTo filesFlow 2 target := by
  have runs : (closing.judge (.ofRule .unnamed) (ofAdditions filesFlow).queries).toOption.any
      fun verdict => verdict.failures.map (fun f => (f.location, f.violation)) =
          [(some 2, some .unfollowedOccurrence)] ∧
        verdict.passes.map (fun f => (f.location, f.related)) = [(some 0, [1])] := by
    decide +kernel
  obtain ⟨follows, _⟩ := pairings_exact filesFlow (.ofRule .unnamed)
  obtain ⟨verdict, judged, decides⟩ := follows closing
  rw [judged] at runs
  obtain ⟨fails, passes⟩ := of_decide_eq_true runs
  obtain ⟨ids, failures, _, failing⟩ := decides.failures
  obtain ⟨pairs, paired, _, passing⟩ := decides.passes
  have unclosed : 2 ∈ ids := by
    have located : (some 2, some Violation.unfollowedOccurrence) ∈
        ids.map fun id => (some id, some Violation.unfollowedOccurrence) := by
      rw [← failures, fails]
      exact List.mem_singleton_self _
    simpa using located
  have closed : (0, 1) ∈ pairs := by
    have located : (some 0, [1]) ∈ pairs.map fun pair => (some pair.1, [pair.2]) := by
      rw [← paired, passes]
      exact List.mem_singleton_self _
    simpa using located
  obtain ⟨_, _, least⟩ := (passing 0 1).mp closed
  exact ⟨verdict, judged, fails, passes, least.1.2, fun target matching flows =>
    ((failing 2).mp unclosed).2 target ⟨matching, flows⟩⟩

end Program

end CallOrder
