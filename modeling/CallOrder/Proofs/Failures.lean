import CallOrder.Proofs.Index
import CallOrder.Proofs.Partition

/-!
Where a rule fails on a recorded program. Every rule on single operations is judged there, and the
places where it fails are said in terms of the calls that match and of the flow.
-/

namespace CallOrder

/-- Where a judgement fails, in the order of its findings, if it is made. -/
def failurePlaces (judged : Except Error Verdict) : Option (List (Option OccurrenceId)) :=
  judged.toOption.map fun verdict => verdict.failures.map (·.location)

def FailsAt (judged : Except Error Verdict) (places : Set OccurrenceId) : Prop :=
  ∃ verdict, judged = .ok verdict ∧
    ∀ location, location ∈ verdict.failures.map (·.location) ↔ ∃ id ∈ places, location = some id

/-- Both judgements are made, and the first fails nowhere but where the second one does. -/
def FailsWithin (one other : Except Error Verdict) : Prop :=
  ∃ fewer more, one = .ok fewer ∧ other = .ok more ∧
    fewer.failures.map (·.location) ⊆ more.failures.map (·.location)

theorem FailsAt.within {one other : Except Error Verdict} {places others : Set OccurrenceId}
    (first : FailsAt one places) (second : FailsAt other others) (inside : places ⊆ others) :
    FailsWithin one other := by
  rcases first with ⟨fewer, judged, exactly⟩
  rcases second with ⟨more, judgedToo, exactlyToo⟩
  refine ⟨fewer, more, judged, judgedToo, ?_⟩
  intro location fails
  rcases (exactly location).mp fails with ⟨id, present, same⟩
  exact (exactlyToo location).mpr ⟨id, inside present, same⟩

theorem failsAt_of_failures {judged : Except Error Verdict} {verdict : Verdict}
    {violation : Violation} {ids : List OccurrenceId} {places : Set OccurrenceId}
    (made : judged = .ok verdict)
    (failures : verdict.failures.map (fun f => (f.location, f.violation)) =
      ids.map fun id => (some id, some violation))
    (listed : ∀ id, id ∈ ids ↔ id ∈ places) : FailsAt judged places := by
  have locations : verdict.failures.map (·.location) = ids.map some := by
    simpa [Function.comp_def] using congrArg (List.map Prod.fst) failures
  refine ⟨verdict, made, ?_⟩
  intro location
  simp [locations, listed, eq_comm]

namespace Arena

def Targeting (a : Arena) (ops : List Operation) (id : OccurrenceId) : Prop :=
  ∃ op ∈ ops, ∃ o, a.get? id = some o ∧ o.target = op.target

/-- What matches `ops` and is linked with no occurrence that matches `partners`. -/
def unpaired (a : Arena) (ops partners : List Operation)
    (linked : OccurrenceId → OccurrenceId → Prop) : Set OccurrenceId :=
  {id | a.Matching ops id ∧ ∀ partner, a.Matching partners partner → ¬ linked id partner}

theorem unpaired_subset {a b : Arena} {ops partners others more : List Operation}
    {linked linkedToo : OccurrenceId → OccurrenceId → Prop}
    (subjects : ∀ id, a.Matching ops id → b.Matching others id)
    (kept : ∀ partner, b.Matching more partner → a.Matching partners partner)
    (links : ∀ id partner, linkedToo id partner → linked id partner) :
    a.unpaired ops partners linked ⊆ b.unpaired others more linkedToo := by
  intro id alone
  refine ⟨subjects id alone.1, ?_⟩
  intro partner matching leads
  exact alone.2 partner (kept partner matching) (links id partner leads)

end Arena

namespace Program

variable {p : Program}

theorem targeted_ok (indexed : p.arena.Indexed) (ops : List Operation) :
    ∃ found, p.queries.targeted ops = .ok found ∧
      ∀ id, id ∈ found ↔ p.arena.Targeting ops id := by
  rcases p.queries_answers.targeted_ok ops with ⟨found, asked, members⟩
  refine ⟨found, asked, ?_⟩
  intro id
  simp [members, answersTo, Arena.Targeting, mem_resolve indexed]

end Program

open Program

variable (context : Context) (additions : List Addition)

theorem Only.failsAt (rule : Only) :
    FailsAt (rule.judge context (ofAdditions additions).queries)
      {id | (ofAdditions additions).arena.Targeting rule.ops id ∧
        ¬ (ofAdditions additions).arena.Matching rule.ops id} := by
  have indexed := ofAdditions_indexed additions
  rcases Program.fitting_ok indexed rule.ops with ⟨correct, fitting, isFitting⟩
  rcases targeted_ok indexed rule.ops with ⟨all, targeted, isTargeted⟩
  rcases rule.judge_reports context fitting targeted with ⟨verdict, judged, reports, _⟩
  apply failsAt_of_failures judged reports.failures
  intro id
  simp [OccurrenceSet.mem_outside, isFitting, isTargeted]

theorem Never.failsAt (rule : Never) :
    FailsAt (rule.judge context (ofAdditions additions).queries)
      {id | (ofAdditions additions).arena.Matching rule.ops id} := by
  have indexed := ofAdditions_indexed additions
  rcases Program.fitting_ok indexed rule.ops with ⟨violating, fitting, isFitting⟩
  rcases targeted_ok indexed rule.ops with ⟨all, targeted, _⟩
  rcases rule.judge_reports context fitting targeted with ⟨verdict, judged, reports, _⟩
  apply failsAt_of_failures judged reports.failures
  intro id
  simp [isFitting]

theorem Program.pairing_failsAt (p : Pairing) (reportPassing : Bool)
    (subjectOps partnerOps : List Operation) {Linked : OccurrenceId → OccurrenceId → Prop}
    (answers : ∀ subject < (occurrencesOf additions).length,
      ∀ partner < (occurrencesOf additions).length, ∃ answer,
        p.linked subject partner = .ok answer ∧ (answer = true ↔ Linked subject partner)) :
    FailsAt (do
        let subjects ← (ofAdditions additions).queries.fitting subjectOps
        let partners ← (ofAdditions additions).queries.fitting partnerOps
        return .ofFindings
          (← p.findings context.rule reportPassing partners.toList subjects.toList))
      ((ofAdditions additions).arena.unpaired subjectOps partnerOps Linked) := by
  rcases pairing_decides p context.rule reportPassing subjectOps partnerOps answers with
    ⟨subjects, partners, findings, subjectsFound, partnersFound, found, decides⟩
  rcases decides.failures with ⟨ids, failures, _, failing⟩
  rw [subjectsFound, ok_bind, partnersFound, ok_bind, found, ok_bind]
  apply failsAt_of_failures rfl failures
  intro id
  simp [failing, Arena.unpaired]

theorem Follows.failsAt (rule : Follows) :
    FailsAt (rule.judge context (ofAdditions additions).queries)
      ((ofAdditions additions).arena.unpaired rule.ifOps rule.thenOps (FlowsTo additions)) := by
  apply pairing_failsAt
  intro source known target knownTarget
  exact reachable_ofAdditions known knownTarget

theorem Precedes.failsAt (rule : Precedes) :
    FailsAt (rule.judge context (ofAdditions additions).queries)
      ((ofAdditions additions).arena.unpaired rule.thisOps rule.prevOps
        fun target source => FlowsTo additions source target) := by
  apply pairing_failsAt
  intro target known source knownSource
  exact reachable_ofAdditions knownSource known

end CallOrder
