import CallOrder.Proofs.Failures
import CallOrder.Proofs.Presentation

/-!
How the operations of a rule are listed. Main statement: their order and their repetitions have no
influence on a judgement but in its messages, and not in these where the rule has its own.
-/

namespace CallOrder

/-- The rule has messages of its own, for failures and for passes. -/
def Rule.OwnWords (rule : Rule) : Prop :=
  (∃ message, rule.failMessage = some message ∧ message ≠ "") ∧
    ∃ message, rule.passMessage = some message ∧ message ≠ ""

namespace Rule.OwnWords

variable {rule : Rule}

theorem failText (own : rule.OwnWords) (standard : String) :
    rule.failText standard = rule.failMessage.getD "" := by
  rcases own.1 with ⟨message, present, worded⟩
  simp [Rule.failText, choose, present, worded]

theorem passText (own : rule.OwnWords) (standard : String) :
    rule.passText standard = rule.passMessage.getD "" := by
  rcases own.2 with ⟨message, present, worded⟩
  simp [Rule.passText, choose, present, worded]

end Rule.OwnWords

/-- The same but for the message, and the same in all where the rule has its own messages. -/
structure Finding.Agrees (info : Rule) (one other : Finding) : Prop where
  rewords : one.Rewords other
  eq : info.OwnWords → one = other

def SameButWords (info : Rule) (one other : Except Error Verdict) : Prop :=
  ∃ first second, one = .ok first ∧ other = .ok second ∧ first.Rewords second ∧
    (info.OwnWords → first = second)

namespace Finding

variable {info : Rule}

theorem agrees_self (finding : Finding) : finding.Agrees info finding := ⟨rfl, fun _ => rfl⟩

theorem agrees_same (findings : List Finding) : List.Forall₂ (Agrees info) findings findings :=
  List.forall₂_same.mpr fun finding _ => agrees_self finding

theorem agrees_map {find findToo : OccurrenceId → Finding}
    (agree : ∀ id, (find id).Agrees info (findToo id)) (ids : List OccurrenceId) :
    List.Forall₂ (Agrees info) (ids.map find) (ids.map findToo) := by
  simp [List.forall₂_same, agree]

theorem agrees_ofFindings {one other : List Finding} (agree : List.Forall₂ (Agrees info) one other) :
    (Verdict.ofFindings one).Matches (List.Forall₂ (Agrees info)) (Verdict.ofFindings other) := by
  have rewords : List.Forall₂ Rewords one other := agree.imp fun _ _ same => same.rewords
  exact ⟨congrArg (!·) (any_isFailure_rewords rewords), agree⟩

end Finding

theorem sameButWords_of_corresponds {info : Rule} {one other : Except Error Verdict}
    {places : Set OccurrenceId} (made : FailsAt one places)
    (both : Corresponds (Verdict.Matches (List.Forall₂ (Finding.Agrees info))) one other) :
    SameButWords info one other := by
  rcases made with ⟨verdict, judged, _⟩
  cases both with
  | error e => cases judged
  | ok agree =>
      refine ⟨_, _, rfl, rfl, ⟨agree.outcome, agree.findings.imp fun _ _ same => same.rewords⟩, ?_⟩
      intro own
      have findings := agree.findings.imp fun _ _ same => same.eq own
      rw [List.forall₂_eq_eq_eq] at findings
      exact congrArg₂ Verdict.mk agree.outcome findings

section Asking

variable {ops others : List Operation} (same : ∀ op, op ∈ ops ↔ op ∈ others)

include same

theorem Queries.Answers.fitting_congr {q : Queries} {targeted fitting : Operation → OccurrenceSet}
    (answers : q.Answers targeted fitting) : q.fitting ops = q.fitting others := by
  rcases answers.fitting_ok ops with ⟨found, asked, members⟩
  rcases answers.fitting_ok others with ⟨foundToo, askedToo, membersToo⟩
  have equal : found = foundToo := by
    apply Std.ExtTreeSet.ext_mem
    intro id
    simp [members, membersToo, answersTo, same]
  rw [asked, askedToo, equal]

theorem Queries.targeted_congr (q : Queries) : q.targeted ops = q.targeted others := by
  have distinct : Std.ExtTreeSet.ofList ops = Std.ExtTreeSet.ofList others := by
    apply Std.ExtTreeSet.ext_mem
    intro op
    simp [Std.ExtTreeSet.mem_ofList, same]
  rw [targeted, targeted, distinct]

end Asking

namespace Finding

variable {info : Rule} (arena : Arena) (id : OccurrenceId)

theorem agrees_onlyViolation (rule other : Only) :
    (rule.violation info arena id).Agrees info (other.violation info arena id) where
  rewords := rfl
  eq own := by simp only [Only.violation, own.failText]

theorem agrees_neverViolation (rule other : Never) :
    (rule.violation info arena id).Agrees info (other.violation info arena id) where
  rewords := rfl
  eq own := by simp only [Never.violation, own.failText]

theorem agrees_neverCompliance (rule other : Never) :
    (rule.compliance info arena id).Agrees info (other.compliance info arena id) where
  rewords := rfl
  eq own := by simp only [Never.compliance, own.passText]

end Finding

theorem Pairing.findings_agree (p : Pairing) (words : OccurrenceId → String) (info : Rule)
    (reportPassing : Bool) (partners subjects : List OccurrenceId) :
    Corresponds (List.Forall₂ (Finding.Agrees info))
      (p.findings info reportPassing partners subjects)
      ({ p with failure := words }.findings info reportPassing partners subjects) := by
  induction subjects with
  | nil => exact .ok .nil
  | cons subject subjects ih =>
      rw [findings, findings]
      apply Corresponds.bind_same
      intro partner?
      apply ih.bind
      intro rest otherRest agree
      cases partner? with
      | none =>
          apply Corresponds.ok
          refine .cons ⟨rfl, ?_⟩ agree
          intro own
          simp only [own.failText]
      | some partner =>
          cases reportPassing with
          | true => exact .ok (.cons (Finding.agrees_self _) agree)
          | false => exact .ok agree

section Judging

variable {ops others partners partnersToo : List Operation}
  (same : ∀ op, op ∈ ops ↔ op ∈ others) (p : Program) (context : Context) (reportPassing : Bool)

include same

theorem Only.relist : Corresponds (Verdict.Matches (List.Forall₂ (Finding.Agrees context.rule)))
    ((⟨ops, reportPassing⟩ : Only).judge context p.queries)
    ((⟨others, reportPassing⟩ : Only).judge context p.queries) := by
  rw [Only.judge, Only.judge, p.queries_answers.fitting_congr same, p.queries.targeted_congr same]
  apply Corresponds.bind_same
  intro correct
  apply Corresponds.bind_same
  intro all
  apply Corresponds.ok
  constructor
  · rfl
  · apply List.rel_append
    · exact Finding.agrees_map (fun id => Finding.agrees_onlyViolation p.arena id _ _) _
    · exact Finding.agrees_same _

theorem Never.relist : Corresponds (Verdict.Matches (List.Forall₂ (Finding.Agrees context.rule)))
    ((⟨ops, reportPassing⟩ : Never).judge context p.queries)
    ((⟨others, reportPassing⟩ : Never).judge context p.queries) := by
  rw [Never.judge, Never.judge, p.queries_answers.fitting_congr same, p.queries.targeted_congr same]
  apply Corresponds.bind_same
  intro violating
  apply Corresponds.bind_same
  intro all
  apply Corresponds.ok
  apply Finding.agrees_ofFindings
  apply List.rel_append
  · exact Finding.agrees_map (fun id => Finding.agrees_neverViolation p.arena id _ _) _
  · cases reportPassing with
    | true => exact Finding.agrees_map (fun id => Finding.agrees_neverCompliance p.arena id _ _) _
    | false => exact .nil

variable (sameToo : ∀ op, op ∈ partners ↔ op ∈ partnersToo)

include sameToo

theorem Follows.relist : Corresponds (Verdict.Matches (List.Forall₂ (Finding.Agrees context.rule)))
    ((⟨ops, partners, reportPassing⟩ : Follows).judge context p.queries)
    ((⟨others, partnersToo, reportPassing⟩ : Follows).judge context p.queries) := by
  rw [Follows.judge, Follows.judge, p.queries_answers.fitting_congr same,
    p.queries_answers.fitting_congr sameToo]
  apply Corresponds.bind_same
  intro sources
  apply Corresponds.bind_same
  intro targets
  apply (Pairing.findings_agree _ _ context.rule reportPassing targets.toList sources.toList).bind
  intro findings findingsToo agree
  exact .ok (Finding.agrees_ofFindings agree)

theorem Precedes.relist : Corresponds (Verdict.Matches (List.Forall₂ (Finding.Agrees context.rule)))
    ((⟨partners, ops, reportPassing⟩ : Precedes).judge context p.queries)
    ((⟨partnersToo, others, reportPassing⟩ : Precedes).judge context p.queries) := by
  rw [Precedes.judge, Precedes.judge, p.queries_answers.fitting_congr same,
    p.queries_answers.fitting_congr sameToo]
  apply Corresponds.bind_same
  intro targets
  apply Corresponds.bind_same
  intro predecessors
  apply (Pairing.findings_agree _ _ context.rule reportPassing predecessors.toList
    targets.toList).bind
  intro findings findingsToo agree
  exact .ok (Finding.agrees_ofFindings agree)

end Judging

namespace Program

/-- On every recorded program, lists of the same operations, in whatever order and however often
each of them is listed, are judged to the same outcome with the same findings one by one, but for
the messages; with messages of the rule's own, these are the same as well. -/
theorem listing_immaterial (additions : List Addition) (context : Context) (reportPassing : Bool)
    {ops others : List Operation} (same : ∀ op, op ∈ ops ↔ op ∈ others) :
    SameButWords context.rule
      ((⟨ops, reportPassing⟩ : Only).judge context (ofAdditions additions).queries)
      ((⟨others, reportPassing⟩ : Only).judge context (ofAdditions additions).queries) ∧
    SameButWords context.rule
      ((⟨ops, reportPassing⟩ : Never).judge context (ofAdditions additions).queries)
      ((⟨others, reportPassing⟩ : Never).judge context (ofAdditions additions).queries) ∧
    ∀ partners partnersToo : List Operation, (∀ op, op ∈ partners ↔ op ∈ partnersToo) →
      SameButWords context.rule
        ((⟨ops, partners, reportPassing⟩ : Follows).judge context (ofAdditions additions).queries)
        ((⟨others, partnersToo, reportPassing⟩ : Follows).judge context
          (ofAdditions additions).queries) ∧
      SameButWords context.rule
        ((⟨partners, ops, reportPassing⟩ : Precedes).judge context (ofAdditions additions).queries)
        ((⟨partnersToo, others, reportPassing⟩ : Precedes).judge context
          (ofAdditions additions).queries) := by
  refine ⟨?_, ?_, ?_⟩
  · exact sameButWords_of_corresponds (Only.failsAt context additions _)
      (Only.relist same _ context reportPassing)
  · exact sameButWords_of_corresponds (Never.failsAt context additions _)
      (Never.relist same _ context reportPassing)
  · intro partners partnersToo sameToo
    constructor
    · exact sameButWords_of_corresponds (Follows.failsAt context additions _)
        (Follows.relist same _ context reportPassing sameToo)
    · exact sameButWords_of_corresponds (Precedes.failsAt context additions _)
        (Precedes.relist same _ context reportPassing sameToo)

def allowed : List Operation := [⟨"init", some [.value "ENCRYPT"]⟩, .any "seed"]

def allowedAgain : List Operation :=
  [.any "seed", ⟨"init", some [.value "ENCRYPT"]⟩, .any "seed"]

def ownWords : Rule := ⟨"mode", some "No other mode.", some "The right mode.", .error⟩

theorem ciphers_relisted : ∃ first second,
    (⟨allowed, true⟩ : Only).judge (.ofRule .unnamed) (ofAdditions ciphers).queries = .ok first ∧
    (⟨allowedAgain, true⟩ : Only).judge (.ofRule .unnamed) (ofAdditions ciphers).queries =
      .ok second ∧
    first.Rewords second ∧ first ≠ second ∧ first.failures.map (·.location) = [some 2] ∧
    (⟨allowed, true⟩ : Only).judge (.ofRule ownWords) (ofAdditions ciphers).queries =
      (⟨allowedAgain, true⟩ : Only).judge (.ofRule ownWords) (ofAdditions ciphers).queries := by
  have same : ∀ op, op ∈ allowed ↔ op ∈ allowedAgain := by
    intro op
    simp [allowed, allowedAgain, or_comm]
  rcases (listing_immaterial ciphers (.ofRule .unnamed) true same).1 with
    ⟨first, second, judged, judgedToo, rewords, _⟩
  rcases (listing_immaterial ciphers (.ofRule ownWords) true same).1 with
    ⟨worded, wordedToo, told, toldToo, _, equal⟩
  have own : ownWords.OwnWords := ⟨⟨_, rfl, by decide⟩, ⟨_, rfl, by decide⟩⟩
  refine ⟨first, second, judged, judgedToo, rewords, ?_, ?_, ?_⟩
  · rintro rfl
    have different : (⟨allowed, true⟩ : Only).judge (.ofRule .unnamed)
        (ofAdditions ciphers).queries ≠ (⟨allowedAgain, true⟩ : Only).judge (.ofRule .unnamed)
        (ofAdditions ciphers).queries := by
      decide +kernel
    exact different (judged.trans judgedToo.symm)
  · have places : failurePlaces ((⟨allowed, true⟩ : Only).judge (.ofRule .unnamed)
        (ofAdditions ciphers).queries) = some [some 2] := by
      decide +kernel
    rw [judged] at places
    exact Option.some.inj places
  · rw [told, toldToo, equal own]

end Program

end CallOrder
