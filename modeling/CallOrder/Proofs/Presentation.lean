import CallOrder.Check
import CallOrder.Proofs.Result
import CallOrder.Proofs.Schedule
import Mathlib.Data.List.Forall2

/-!
How a rule is presented: whether passes are reported, and in which words. Main statement: neither
has any influence on a judgement. Two judgements of one check under different presentations are
followed side by side, with what their findings have in common as a parameter.
-/

namespace CallOrder

structure Presentation where
  reportPassing : Bool
  rule : Rule

namespace Finding

def Rewords (one other : Finding) : Prop := { one with message := other.message } = other

/-- A finding of one kind on whatever rule it is told of. It has the name and the severity of the
rule, and nothing of the rule's own messages gets into more than its message. -/
structure Tells (kind : FindingKind) (finding : Rule → Finding) : Prop where
  kind_eq : ∀ rule, (finding rule).kind = kind
  rewords : ∀ rule other : Rule, rule.name = other.name → rule.severity = other.severity →
    (finding rule).Rewords (finding other)

theorem tells (kind : FindingKind) (violation : Option Violation) (message : Rule → String)
    (location : Option OccurrenceId) (base : Option Base) (expectedNext : List String)
    (related : List OccurrenceId) :
    Tells kind fun rule => ⟨kind, violation, rule.name, rule.severity, message rule, location, base,
      expectedNext, related⟩ where
  kind_eq _ := rfl
  rewords rule other name severity := by simp [Rewords, name, severity]

theorem Tells.isPass_eq {kind : FindingKind} {finding : Rule → Finding}
    (told : Tells kind finding) (rule : Rule) : (finding rule).isPass = (kind == .pass) := by
  rw [isPass, told.kind_eq]

theorem any_isFailure_filter (findings : List Finding) :
    (findings.filter (!·.isPass)).any (·.isFailure) = findings.any (·.isFailure) := by
  rw [List.any_filter]
  apply congrArg (List.any findings)
  funext f
  rw [isPass, isFailure]
  cases f.kind <;> rfl

theorem any_isFailure_rewords {findings others : List Finding}
    (rewords : List.Forall₂ Rewords findings others) :
    findings.any (·.isFailure) = others.any (·.isFailure) := by
  induction rewords with
  | nil => rfl
  | cons same _ ih =>
      rw [List.any_cons, List.any_cons, ih, ← same]
      rfl

end Finding

/-! All that rules and walks find is told of the rule in this way. -/

theorem Only.violation_tells (rule : Only) (arena : Arena) (id : OccurrenceId) :
    Finding.Tells .fail fun info => rule.violation info arena id :=
  Finding.tells ..

theorem Only.compliance_tells (arena : Arena) (id : OccurrenceId) :
    Finding.Tells .pass fun info => compliance info arena id :=
  Finding.tells ..

theorem Never.violation_tells (rule : Never) (arena : Arena) (id : OccurrenceId) :
    Finding.Tells .fail fun info => rule.violation info arena id :=
  Finding.tells ..

theorem Never.compliance_tells (rule : Never) (arena : Arena) (id : OccurrenceId) :
    Finding.Tells .pass fun info => rule.compliance info arena id :=
  Finding.tells ..

theorem Pairing.failure_tells (p : Pairing) (subject : OccurrenceId) :
    Finding.Tells .fail fun info =>
      (Finding.failure p.violation info (info.failText (p.failure subject))).locatedAt subject :=
  Finding.tells ..

theorem Pairing.success_tells (p : Pairing) (subject partner : OccurrenceId) :
    Finding.Tells .pass fun info =>
      { (Finding.success info (info.passText (p.success subject partner))).locatedAt subject with
        related := [partner] } :=
  Finding.tells ..

theorem Walk.missingTransition_tells (dfa : Dfa) (arena : Arena) (trace : Trace) (step : TraceStep)
    (state : Nat) :
    Finding.Tells .fail fun info => missingTransition dfa info arena trace step state :=
  Finding.tells ..

theorem Walk.notTerminated_tells (dfa : Dfa) (trace : Trace) (last : TraceStep) (state : Nat) :
    Finding.Tells .fail fun info => notTerminated dfa info trace last state :=
  Finding.tells ..

theorem Walk.passed_tells (trace : Trace) (last : TraceStep) :
    Finding.Tells .pass fun info => passed info trace last :=
  Finding.tells ..

theorem Finding.inapplicable_tells (message : String) :
    Finding.Tells .notApplicable fun info => Finding.inapplicable info message :=
  Finding.tells ..

structure Verdict.Matches (related : List Finding → List Finding → Prop) (one other : Verdict) :
    Prop where
  outcome : one.outcome = other.outcome
  findings : related one.findings other.findings

/-- A relation between what is found under two presentations. It is made up finding by finding, and
tells what fails. -/
structure Presentation.Carries (first second : Presentation)
    (related : List Finding → List Finding → Prop) : Prop where
  nothing : related [] []
  append : ∀ {one other more moreOther}, related one other → related more moreOther →
    related (one ++ more) (other ++ moreOther)
  finding : ∀ {kind finding}, Finding.Tells kind finding → kind ≠ .pass →
    related [finding first.rule] [finding second.rule]
  pass : ∀ {finding}, Finding.Tells .pass finding →
    related (if first.reportPassing then [finding first.rule] else [])
      (if second.reportPassing then [finding second.rule] else [])
  failing : ∀ {one other}, related one other →
    one.any (·.isFailure) = other.any (·.isFailure)

namespace Presentation.Carries

variable {first second : Presentation} {related : List Finding → List Finding → Prop}
  (carries : first.Carries second related)

include carries

theorem ofFindings {one other : List Finding} (findings : related one other) :
    (Verdict.ofFindings one).Matches related (Verdict.ofFindings other) where
  outcome := congrArg (!·) (carries.failing findings)
  findings := findings

theorem failures {violate : Rule → OccurrenceId → Finding}
    (tells : ∀ id, Finding.Tells .fail fun rule => violate rule id) (ids : List OccurrenceId) :
    related (ids.map (violate first.rule)) (ids.map (violate second.rule)) := by
  induction ids with
  | nil => exact carries.nothing
  | cons id ids ih => exact carries.append (carries.finding (tells id) (by decide)) ih

theorem passes {comply : Rule → OccurrenceId → Finding}
    (tells : ∀ id, Finding.Tells .pass fun rule => comply rule id) (ids : List OccurrenceId) :
    related (if first.reportPassing then ids.map (comply first.rule) else [])
      (if second.reportPassing then ids.map (comply second.rule) else []) := by
  induction ids with
  | nil => simpa using carries.nothing
  | cons id ids ih =>
      have joined : ∀ presented : Presentation,
          (if presented.reportPassing then (id :: ids).map (comply presented.rule) else []) =
            (if presented.reportPassing then [comply presented.rule id] else []) ++
              if presented.reportPassing then ids.map (comply presented.rule) else [] := by
        intro presented
        split <;> rfl
      rw [joined, joined]
      exact carries.append (carries.pass (tells id)) ih

theorem only (rule : Only) (context : Context) (q : Queries) :
    Corresponds (Verdict.Matches related)
      (({ rule with reportPassing := first.reportPassing } : Only).judge
        { context with rule := first.rule } q)
      (({ rule with reportPassing := second.reportPassing } : Only).judge
        { context with rule := second.rule } q) := by
  apply Corresponds.bind_same
  intro correct
  apply Corresponds.bind_same
  intro all
  apply Corresponds.ok
  constructor
  · rfl
  · apply carries.append
    · exact carries.failures (rule.violation_tells q.arena) _
    · exact carries.passes (Only.compliance_tells q.arena) _

theorem never (rule : Never) (context : Context) (q : Queries) :
    Corresponds (Verdict.Matches related)
      (({ rule with reportPassing := first.reportPassing } : Never).judge
        { context with rule := first.rule } q)
      (({ rule with reportPassing := second.reportPassing } : Never).judge
        { context with rule := second.rule } q) := by
  apply Corresponds.bind_same
  intro violating
  apply Corresponds.bind_same
  intro all
  apply Corresponds.ok
  apply carries.ofFindings
  apply carries.append
  · exact carries.failures (rule.violation_tells q.arena) _
  · exact carries.passes (rule.compliance_tells q.arena) _

theorem pairing (p : Pairing) (partners subjects : List OccurrenceId) :
    Corresponds related (p.findings first.rule first.reportPassing partners subjects)
      (p.findings second.rule second.reportPassing partners subjects) := by
  induction subjects with
  | nil => exact .ok carries.nothing
  | cons subject subjects ih =>
      rw [Pairing.findings, Pairing.findings]
      apply Corresponds.bind_same
      intro partner?
      apply ih.bind
      intro rest otherRest known
      cases partner? with
      | none =>
          exact .ok (carries.append (carries.finding (p.failure_tells subject) (by decide)) known)
      | some partner =>
          have both := carries.append (carries.pass (p.success_tells subject partner)) known
          revert both
          cases first.reportPassing <;> cases second.reportPassing <;> exact .ok

theorem follows (rule : Follows) (context : Context) (q : Queries) :
    Corresponds (Verdict.Matches related)
      (({ rule with reportPassing := first.reportPassing } : Follows).judge
        { context with rule := first.rule } q)
      (({ rule with reportPassing := second.reportPassing } : Follows).judge
        { context with rule := second.rule } q) := by
  apply Corresponds.bind_same
  intro sources
  apply Corresponds.bind_same
  intro targets
  apply (carries.pairing (rule.pairing q) targets.toList sources.toList).bind
  intro one other findings
  exact .ok (carries.ofFindings findings)

theorem precedes (rule : Precedes) (context : Context) (q : Queries) :
    Corresponds (Verdict.Matches related)
      (({ rule with reportPassing := first.reportPassing } : Precedes).judge
        { context with rule := first.rule } q)
      (({ rule with reportPassing := second.reportPassing } : Precedes).judge
        { context with rule := second.rule } q) := by
  apply Corresponds.bind_same
  intro targets
  apply Corresponds.bind_same
  intro sources
  apply (carries.pairing (rule.pairing q) sources.toList targets.toList).bind
  intro one other findings
  exact .ok (carries.ofFindings findings)

theorem walk (dfa : Dfa) (arena : Arena) (trace : Trace) :
    related (dfa.walk first.rule first.reportPassing arena trace).findings
      (dfa.walk second.rule second.reportPassing arena trace).findings := by
  rw [Dfa.walk, Dfa.walk]
  cases trace.steps.getLast? with
  | none => exact carries.nothing
  | some last =>
      cases Walk.firstMissing? dfa dfa.start trace.steps with
      | some stop =>
          exact carries.finding (Walk.missingTransition_tells dfa arena trace stop.1 stop.2)
            (by decide)
      | none =>
          dsimp only
          rw [Walk.conclusion, Walk.conclusion]
          split
          · exact carries.pass (Walk.passed_tells trace last)
          · exact carries.finding (Walk.notTerminated_tells dfa trace last _) (by decide)

theorem walkAll (dfa : Dfa) (operations : OperationTable) (q : Queries) (bases : List Base) :
    Corresponds related
      (Ordered.walkAll dfa first.rule first.reportPassing operations q bases)
      (Ordered.walkAll dfa second.rule second.reportPassing operations q bases) := by
  induction bases with
  | nil => exact .ok carries.nothing
  | cons base bases ih =>
      rw [Ordered.walkAll, Ordered.walkAll]
      cases q.traceOf base operations with
      | error e => exact .error _
      | ok trace =>
          apply ih.bind
          intro rest otherRest known
          exact .ok (carries.append (carries.walk dfa q.arena trace) known)

theorem walkBases (rule : Ordered) (dfa : Dfa) (operations : OperationTable) (q : Queries)
    (schedule : Schedule) (bases : List Base) :
    Corresponds related
      (({ rule with settings := { rule.settings with
        reportPassing := first.reportPassing } } : Ordered).walkBases dfa first.rule operations q
          schedule bases)
      (({ rule with settings := { rule.settings with
        reportPassing := second.reportPassing } } : Ordered).walkBases dfa second.rule operations q
          schedule bases) := by
  rw [Ordered.walkBases, Ordered.walkBases]
  have inTurn := carries.walkAll dfa operations q bases
  split
  · -- the failure that is the first in time is the same for both
    rw [Ordered.walkTogether, Ordered.walkTogether]
    cases (schedule.arrange bases).findSome? fun base => error? (q.traceOf base operations) with
    | some e => exact .error _
    | none => exact inTurn
  · exact inTurn

theorem judgeBy (rule : Ordered) (dfa : Dfa) (context : Context) (q : Queries)
    (schedule : Schedule) :
    Corresponds (Verdict.Matches related)
      (({ rule with settings := { rule.settings with
        reportPassing := first.reportPassing } } : Ordered).judgeBy dfa
          { context with rule := first.rule } q schedule)
      (({ rule with settings := { rule.settings with
        reportPassing := second.reportPassing } } : Ordered).judgeBy dfa
          { context with rule := second.rule } q schedule) := by
  apply Corresponds.bind_same
  intro bound
  apply Corresponds.bind_same
  intro bases
  split
  · exact .ok (carries.ofFindings (carries.finding (Finding.inapplicable_tells _) (by decide)))
  · apply (carries.walkBases rule dfa (rule.operations context) q schedule bases).bind
    intro one other findings
    exact .ok (carries.ofFindings findings)

theorem judge (check : Check) (context : Context) (q : Queries) (schedule : Schedule) :
    Corresponds (Verdict.Matches related)
      ((check.reporting first.reportPassing).judge { context with rule := first.rule } q schedule)
      ((check.reporting second.reportPassing).judge { context with rule := second.rule } q
        schedule) := by
  cases check with
  | ordered rule cache =>
      rw [Check.reporting, Check.reporting, Check.judge_ordered, Check.judge_ordered]
      have same : ∀ passes, ({ rule with settings := { rule.settings with
          reportPassing := passes } } : Ordered).automaton cache = rule.automaton cache := by
        cases cache <;> exact fun _ => rfl
      rw [same, same]
      apply Corresponds.bind_same
      intro dfa
      exact carries.judgeBy rule dfa context q schedule
  | follows rule => exact carries.follows rule context q
  | precedes rule => exact carries.precedes rule context q
  | only rule => exact carries.only rule context q
  | never rule => exact carries.never rule context q

end Presentation.Carries

/-- A verdict and the same with passes besides. -/
structure Verdict.AddsPasses (quiet full : Verdict) : Prop where
  outcome : quiet.outcome = full.outcome
  findings : quiet.findings = full.findings.filter (!·.isPass)
  passes : quiet.passes = []

structure Verdict.Rewords (one other : Verdict) : Prop where
  outcome : one.outcome = other.outcome
  findings : List.Forall₂ Finding.Rewords one.findings other.findings

/-- The context of the same rule with other messages of its own. -/
def Context.worded (context : Context) (failMessage passMessage : Option String) : Context :=
  { context with rule := { context.rule with failMessage, passMessage } }

namespace Presentation

theorem carries_passes (rule : Rule) :
    Carries ⟨false, rule⟩ ⟨true, rule⟩ fun quiet full => quiet = full.filter (!·.isPass) where
  nothing := rfl
  append known more := by rw [List.filter_append, ← known, ← more]
  finding tells differs := by
    rw [List.filter_singleton, tells.isPass_eq, beq_eq_false_iff_ne.mpr differs]
    rfl
  pass tells := by
    rw [if_pos rfl, List.filter_singleton, tells.isPass_eq]
    rfl
  failing known := by rw [known, Finding.any_isFailure_filter]

theorem carries_words (reportPassing : Bool) (rule other : Rule) (name : rule.name = other.name)
    (severity : rule.severity = other.severity) :
    Carries ⟨reportPassing, rule⟩ ⟨reportPassing, other⟩ (List.Forall₂ Finding.Rewords) where
  nothing := .nil
  append known more := List.rel_append known more
  finding tells _ := .cons (tells.rewords rule other name severity) .nil
  pass tells := by
    cases reportPassing with
    | true => exact .cons (tells.rewords rule other name severity) .nil
    | false => exact .nil
  failing known := Finding.any_isFailure_rewords known

end Presentation

theorem Check.judge_reporting (check : Check) (context : Context) (q : Queries)
    (schedule : Schedule) :
    Corresponds Verdict.AddsPasses ((check.reporting false).judge context q schedule)
      ((check.reporting true).judge context q schedule) := by
  apply ((Presentation.carries_passes context.rule).judge check context q schedule).mono
  intro quiet full both
  refine ⟨both.outcome, both.findings, ?_⟩
  rw [Verdict.passes, both.findings, List.filter_filter, List.filter_eq_nil_iff]
  simp

theorem Check.judge_worded (check : Check) (context : Context)
    (failMessage passMessage : Option String) (q : Queries) (schedule : Schedule) :
    Corresponds Verdict.Rewords (check.judge context q schedule)
      (check.judge (context.worded failMessage passMessage) q schedule) := by
  have carries := Presentation.carries_words check.reportPassing context.rule
    (context.worded failMessage passMessage).rule rfl rfl
  have both := carries.judge check context q schedule
  rw [check.reporting_reportPassing] at both
  exact both.mono fun one other same => ⟨same.outcome, same.findings⟩

/-- How a check is presented has no influence on its judgement. With passes reported there is the
same error, or the same verdict with passes besides; under other messages of the rule there is the
same error, or the same verdict in other words. This is so under any schedule of walks at the same
time, and how they are scheduled has no influence on a verdict itself: where several of them fail,
it decides which failure is told. -/
theorem presentation_immaterial (check : Check) (context : Context) (q : Queries) :
    (∀ schedule,
      Corresponds Verdict.AddsPasses ((check.reporting false).judge context q schedule)
        ((check.reporting true).judge context q schedule) ∧
      ∀ failMessage passMessage, Corresponds Verdict.Rewords (check.judge context q schedule)
        (check.judge (context.worded failMessage passMessage) q schedule)) ∧
    ∀ schedule other verdict,
      check.judge context q schedule = .ok verdict ↔ check.judge context q other = .ok verdict := by
  constructor
  · intro schedule
    constructor
    · exact check.judge_reporting context q schedule
    · intro failMessage passMessage
      exact check.judge_worded context failMessage passMessage q schedule
  · intro schedule other verdict
    exact (check.judge_eq_ok_iff verdict).trans (check.judge_eq_ok_iff verdict).symm

end CallOrder
