import CallOrder.Check
import CallOrder.Proofs.Ordered
import CallOrder.Proofs.Pairing
import CallOrder.Proofs.Result

/-!
The questions of a judgement, in the order in which they are asked. Main statement: a judgement ends
with the first failure among the answers, and has a verdict if no question fails.
-/

namespace CallOrder

inductive Question where
  /-- Which occurrences have the target of an operation. -/
  | targeted (op : Operation)
  /-- Which occurrences fit an operation. -/
  | fitting (op : Operation)
  | reachable (source target : OccurrenceId)
  | calls (base : Base) (operations : OperationTable)

namespace Queries

variable {α β : Type} {q : Queries} {question : Question} {questions more : List Question}

def failure? (q : Queries) : Question → Option QueryError
  | .targeted op => error? (q.resolve op)
  | .fitting op => error? (q.resolveFitting op)
  | .reachable source target => error? (q.reachable source target)
  | .calls base operations => error? (q.traceOf base operations)

/-- Work that asks the questions in turn. The first failure is its own, and without any it has a
value. -/
inductive Ends (q : Queries) (questions : List Question) : Except Error α → Prop
  | failed {e : QueryError} (first : questions.findSome? q.failure? = some e) :
      Ends q questions (.error (.query e))
  | answered (value : α) (all : questions.findSome? q.failure? = .none) :
      Ends q questions (.ok value)

namespace Ends

theorem nil (value : α) : q.Ends [] (.ok value) := .answered value rfl

theorem congr {work : Except Error α} (ends : q.Ends more work)
    (same : questions.findSome? q.failure? = more.findSome? q.failure?) :
    q.Ends questions work := by
  cases ends with
  | failed first => exact .failed (same.trans first)
  | answered value all => exact .answered value (same.trans all)

theorem cons_failed {e : QueryError} (fails : q.failure? question = some e) :
    q.Ends (question :: more) (.error (.query e) : Except Error α) :=
  .failed (by simp [fails])

theorem cons_answered {work : Except Error α} (answered : q.failure? question = .none)
    (rest : q.Ends more work) : q.Ends (question :: more) work :=
  rest.congr (by simp [answered])

theorem bind {first : Except Error α} {next : α → Except Error β} (begun : q.Ends questions first)
    (rest : ∀ value, first = .ok value → q.Ends more (next value)) :
    q.Ends (questions ++ more) (first >>= next) := by
  cases begun with
  | failed first => exact .failed (by simp [first])
  | answered value all => exact (rest value rfl).congr (by simp [all])

theorem map {work : Except Error α} (ends : q.Ends questions work) (f : α → β) :
    q.Ends questions (work >>= fun value => .ok (f value)) := by
  rw [← List.append_nil questions]
  exact ends.bind fun value _ => nil (f value)

theorem error_iff {work : Except Error α} (ends : q.Ends questions work) (e : QueryError) :
    work = .error (.query e) ↔ questions.findSome? q.failure? = some e := by
  cases ends with
  | failed first => simp [first]
  | answered value all => simp [all]

theorem ok_iff {work : Except Error α} (ends : q.Ends questions work) :
    (∃ value, work = .ok value) ↔ ∀ question ∈ questions, q.failure? question = .none := by
  rw [← List.findSome?_eq_none_iff]
  cases ends with
  | failed first => simp [first]
  | answered value all => simp [all]

end Ends

section Sets

variable {ask : Operation → Except QueryError OccurrenceSet} {toQuestion : Operation → Question}

theorem gather_ends (same : ∀ op, q.failure? (toQuestion op) = error? (ask op))
    (ops : List Operation) (found : OccurrenceSet) :
    q.Ends (ops.map toQuestion) (gather ask ops found) := by
  induction ops generalizing found with
  | nil => exact .nil found
  | cons op ops ih =>
      rw [gather, List.map_cons]
      cases answer : ask op with
      | error e => exact .cons_failed ((same op).trans (congrArg error? answer))
      | ok more => exact .cons_answered ((same op).trans (congrArg error? answer)) (ih _)

theorem fitting_ends (q : Queries) (ops : List Operation) :
    q.Ends (ops.map .fitting) (q.fitting ops) :=
  gather_ends (fun _ => rfl) ops ∅

theorem targeted_ends (q : Queries) (ops : List Operation) :
    q.Ends ((Std.ExtTreeSet.ofList ops).toList.map .targeted) (q.targeted ops) :=
  gather_ends (fun _ => rfl) _ ∅

/-- The occurrences in an answer, of which a failure has none. -/
def listed : Except QueryError OccurrenceSet → List OccurrenceId
  | .ok ids => ids.toList
  | .error _ => []

theorem gather_eq {ops : List Operation} {found all : OccurrenceSet}
    (done : gather ask ops found = .ok all) :
    all = found.insertMany (ops.flatMap fun op => listed (ask op)) := by
  induction ops generalizing found with
  | nil =>
      cases done
      exact Std.ExtTreeSet.insertMany_nil.symm
  | cons op ops ih =>
      rw [gather] at done
      rw [List.flatMap_cons, Std.ExtTreeSet.insertMany_append]
      cases answer : ask op with
      | error e => simp [answer] at done
      | ok more =>
          rw [answer] at done
          exact ih done

end Sets

def found (q : Queries) (ops : List Operation) : List OccurrenceId :=
  (Std.ExtTreeSet.ofList (ops.flatMap fun op => listed (q.resolveFitting op))).toList

theorem toList_fitting {ops : List Operation} {all : OccurrenceSet}
    (done : q.fitting ops = .ok all) : all.toList = q.found ops := by
  rw [found, Std.ExtTreeSet.ofList_eq_insertMany_empty, ← gather_eq done]

end Queries

/-- The candidates up to the first that is linked, and that one. -/
def upToLinked (linked : OccurrenceId → Except QueryError Bool) (candidates : List OccurrenceId) :
    List OccurrenceId :=
  candidates.take (candidates.findIdx (fun candidate => (linked candidate).toOption.getD false) + 1)

section Partners

variable {q : Queries} {linked : OccurrenceId → Except QueryError Bool}

theorem firstLinked_ends {toQuestion : OccurrenceId → Question}
    (same : ∀ candidate, q.failure? (toQuestion candidate) = error? (linked candidate))
    (candidates : List OccurrenceId) :
    q.Ends ((upToLinked linked candidates).map toQuestion) (firstLinked linked candidates) := by
  induction candidates with
  | nil => exact .nil none
  | cons candidate candidates ih =>
      rw [firstLinked, upToLinked, List.take_succ_cons, List.map_cons, List.findIdx_cons]
      cases answer : linked candidate with
      | error e =>
          exact .cons_failed ((same candidate).trans (congrArg error? answer))
      | ok holds =>
          apply Queries.Ends.cons_answered ((same candidate).trans (congrArg error? answer))
          cases holds with
          | true => exact .nil (some candidate)
          | false => exact ih

theorem Pairing.findings_ends (p : Pairing) (rule : Rule) (reportPassing : Bool)
    {toQuestion : OccurrenceId → OccurrenceId → Question}
    (same : ∀ subject partner,
      q.failure? (toQuestion subject partner) = error? (p.linked subject partner))
    (partners subjects : List OccurrenceId) :
    q.Ends
      (subjects.flatMap fun subject =>
        (upToLinked (p.linked subject) partners).map (toQuestion subject))
      (p.findings rule reportPassing partners subjects) := by
  induction subjects with
  | nil => exact .nil []
  | cons subject subjects ih =>
      rw [Pairing.findings, List.flatMap_cons]
      apply (firstLinked_ends (same subject) partners).bind
      intro partner? _
      have further := ih.map fun rest =>
        (p.finding? rule reportPassing subject partner?).toList ++ rest
      cases partner? with
      | none => exact further
      | some partner => cases reportPassing <;> exact further

end Partners

namespace Ordered

variable {q : Queries} {operations : OperationTable}

def selector? (selection : BaseSelection) (operations : OperationTable) : Option Operation :=
  match selection with
  | .ofToken token => operations[token]?
  | _ => none

/-- The selected bases, in the order in which they are walked. -/
def basesFrom (q : Queries) (selection : BaseSelection) (operations : OperationTable) : List Base :=
  match selection with
  | .explicit bases => bases
  | .all => q.arena.bases.toList
  | .ofToken token =>
    let ids := operations[token]?.elim [] fun op => Queries.listed (q.resolveFitting op)
    (Std.ExtTreeSet.ofList (ids.filterMap fun id => (q.arena.get? id).bind (·.base))).toList

theorem selectedBases_ends {selection : BaseSelection}
    (selects : ∀ token, selection = .ofToken token → token ∈ operations) :
    q.Ends ((selector? selection operations).toList.map .fitting)
      (selectedBases selection operations q) := by
  cases selection with
  | explicit bases => exact .nil bases
  | all => exact .nil q.arena.bases.toList
  | ofToken token =>
      rw [selector?, selectedBases]
      cases bound : operations[token]? with
      | none =>
          have isBound := Std.ExtTreeMap.getElem?_eq_some_getElem (selects token rfl)
          rw [bound] at isBound
          cases isBound
      | some op =>
          dsimp only
          cases answer : q.resolveFitting op with
          | error e => exact .cons_failed (congrArg error? answer)
          | ok ids =>
              exact .cons_answered (congrArg error? answer) (.nil _)

theorem selectedBases_eq {selection : BaseSelection} {bases : List Base}
    (selected : selectedBases selection operations q = .ok bases) :
    bases = basesFrom q selection operations := by
  cases selection with
  | explicit bases => exact (Except.ok.inj selected).symm
  | all => exact (Except.ok.inj selected).symm
  | ofToken token =>
      rw [selectedBases] at selected
      cases bound : operations[token]? with
      | none => simp [bound] at selected
      | some op =>
          cases answer : q.resolveFitting op with
          | error e => simp [bound, answer] at selected
          | ok ids => simpa [bound, answer, basesFrom, Queries.listed] using selected.symm

theorem walkAll_ends (dfa : Dfa) (info : Rule) (reportPassing : Bool) (bases : List Base) :
    q.Ends (bases.map (.calls · operations))
      (walkAll dfa info reportPassing operations q bases) := by
  induction bases with
  | nil => exact .nil []
  | cons base bases ih =>
      rw [walkAll, List.map_cons]
      cases answer : q.traceOf base operations with
      | error e => exact .cons_failed (congrArg error? answer)
      | ok trace =>
          exact .cons_answered (congrArg error? answer) (ih.map _)

/-- The order compiles, and its tokens and the one that selects the bases are bound. -/
structure Ready (rule : Ordered) (cache : Option Cache) (context : Context) : Prop where
  compiles : ∃ dfa, rule.automaton cache = .ok dfa
  bound : ∀ token ∈ rule.order.root.tokens, token ∈ rule.operations context
  selects : ∀ token, rule.selection = .ofToken token → token ∈ rule.operations context

theorem judge_ends {rule : Ordered} {cache : Option Cache} {context : Context}
    (ready : rule.Ready cache context) (q : Queries) :
    q.Ends
      ((selector? rule.selection (rule.operations context)).toList.map .fitting ++
        (basesFrom q rule.selection (rule.operations context)).map
          (.calls · (rule.operations context)))
      ((Check.ordered rule cache).judge context q) := by
  obtain ⟨dfa, compiled⟩ := ready.compiles
  rw [Check.judge_ordered, compiled, ok_bind, judgeBy, checkBound_ok ready.bound]
  apply (selectedBases_ends ready.selects).bind
  intro bases selected
  rw [← selectedBases_eq selected]
  -- without a base the rule does not apply, and nothing more is asked
  cases bases with
  | nil => exact .nil _
  | cons base bases =>
      rw [List.isEmpty_cons, if_neg Bool.false_ne_true, walkBases_inOrder]
      exact (walkAll_ends dfa context.rule rule.settings.reportPassing (base :: bases)).map
        Verdict.ofFindings

end Ordered

theorem Follows.judge_ends (rule : Follows) (context : Context) (q : Queries) :
    q.Ends
      (rule.ifOps.map .fitting ++ (rule.thenOps.map .fitting ++
        (q.found rule.ifOps).flatMap fun source =>
          (upToLinked (q.reachable source) (q.found rule.thenOps)).map (.reachable source)))
      (rule.judge context q) := by
  apply (q.fitting_ends rule.ifOps).bind
  intro sources known
  apply (q.fitting_ends rule.thenOps).bind
  intro targets knownToo
  rw [← Queries.toList_fitting known, ← Queries.toList_fitting knownToo]
  exact ((rule.pairing q).findings_ends context.rule rule.reportPassing (fun _ _ => rfl) _ _).map
    Verdict.ofFindings

theorem Precedes.judge_ends (rule : Precedes) (context : Context) (q : Queries) :
    q.Ends
      (rule.thisOps.map .fitting ++ (rule.prevOps.map .fitting ++
        (q.found rule.thisOps).flatMap fun target =>
          (upToLinked (q.reachable · target) (q.found rule.prevOps)).map (.reachable · target)))
      (rule.judge context q) := by
  apply (q.fitting_ends rule.thisOps).bind
  intro targets known
  apply (q.fitting_ends rule.prevOps).bind
  intro predecessors knownToo
  rw [← Queries.toList_fitting known, ← Queries.toList_fitting knownToo]
  exact ((rule.pairing q).findings_ends context.rule rule.reportPassing (fun _ _ => rfl) _ _).map
    Verdict.ofFindings

theorem Only.judge_ends (rule : Only) (context : Context) (q : Queries) :
    q.Ends (rule.ops.map .fitting ++ (Std.ExtTreeSet.ofList rule.ops).toList.map .targeted)
      (rule.judge context q) :=
  (q.fitting_ends rule.ops).bind fun _ _ => (q.targeted_ends rule.ops).map _

theorem Never.judge_ends (rule : Never) (context : Context) (q : Queries) :
    q.Ends (rule.ops.map .fitting ++ (Std.ExtTreeSet.ofList rule.ops).toList.map .targeted)
      (rule.judge context q) :=
  (q.fitting_ends rule.ops).bind fun _ _ => (q.targeted_ends rule.ops).map _

/-- Nothing is wrong with the check itself, so that only its questions can fail. Of the kinds of
rules this is a condition on orders alone. -/
def Check.Ready (context : Context) : Check → Prop
  | ordered rule cache => rule.Ready cache context
  | _ => True

/-- What a judgement asks. Which partners are asked for, and which bases, depends on the answers. -/
def Check.questions (check : Check) (context : Context) (q : Queries) : List Question :=
  match check with
  | ordered rule _ =>
    let operations := rule.operations context
    (Ordered.selector? rule.selection operations).toList.map .fitting ++
      (Ordered.basesFrom q rule.selection operations).map (.calls · operations)
  | follows rule =>
    rule.ifOps.map .fitting ++ (rule.thenOps.map .fitting ++
      (q.found rule.ifOps).flatMap fun source =>
        (upToLinked (q.reachable source) (q.found rule.thenOps)).map (.reachable source))
  | precedes rule =>
    rule.thisOps.map .fitting ++ (rule.prevOps.map .fitting ++
      (q.found rule.thisOps).flatMap fun target =>
        (upToLinked (q.reachable · target) (q.found rule.prevOps)).map (.reachable · target))
  | only rule | never rule =>
    rule.ops.map .fitting ++ (Std.ExtTreeSet.ofList rule.ops).toList.map .targeted

theorem Check.judge_ends {check : Check} {context : Context} (ready : check.Ready context)
    (q : Queries) : q.Ends (check.questions context q) (check.judge context q) := by
  cases check with
  | ordered rule cache => exact Ordered.judge_ends ready q
  | follows rule => exact rule.judge_ends context q
  | precedes rule => exact rule.judge_ends context q
  | only rule => exact rule.judge_ends context q
  | never rule => exact rule.judge_ends context q

/-- A judgement ends with the failure of a question exactly if that is the first failure among its
questions, and has a verdict exactly if none of them fails. -/
theorem first_failure_surfaces (check : Check) (context : Context) (ready : check.Ready context)
    (q : Queries) :
    (∀ e, check.judge context q = .error (.query e) ↔
      (check.questions context q).findSome? q.failure? = some e) ∧
    ((∃ verdict, check.judge context q = .ok verdict) ↔
      ∀ question ∈ check.questions context q, q.failure? question = none) :=
  ⟨(check.judge_ends ready q).error_iff, (check.judge_ends ready q).ok_iff⟩

theorem sessionRule_ready : Ordered.sessionRule.Ready none (.ofRule .unnamed) where
  compiles := by
    have compiles : (Ordered.sessionRule.automaton none).toOption.any (0 < ·.size) := by
      decide +kernel
    obtain ⟨dfa, compiled, _⟩ := exists_eq_ok compiles
    exact ⟨dfa, compiled⟩
  bound := by
    have bound : ∀ token ∈ Ordered.sessionRule.order.root.tokens.toList,
        token ∈ Ordered.sessionRule.operations (.ofRule .unnamed) := by
      decide +kernel
    intro token present
    exact bound token (Std.ExtTreeSet.mem_toList.mpr present)
  selects _ selected := nomatch selected

def unreliable : Queries :=
  { Ordered.filesProgram.queries with
    reachable := fun _ target =>
      if target = 1 then .ok true else .error (.unknownOccurrence target)
    traceOf := fun base operations =>
      if base = "g" then .error (.failed "unreadable")
      else Ordered.filesProgram.queries.traceOf base operations }

theorem unreliable_judged :
    (Check.ordered Ordered.sessionRule none).judge (.ofRule .unnamed) unreliable =
      .error (.query (.failed "unreadable")) ∧
    (∃ verdict, (Check.follows ⟨[.any "open"], [.any "read", .any "close"], false⟩).judge
      (.ofRule .unnamed) unreliable = .ok verdict) ∧
    (Check.follows ⟨[.any "open"], [.any "close"], false⟩).judge (.ofRule .unnamed) unreliable =
      .error (.query (.unknownOccurrence 2)) := by
  have ready : (Check.ordered Ordered.sessionRule none).Ready (.ofRule .unnamed) :=
    sessionRule_ready
  have readyToo : ∀ rule, (Check.follows rule).Ready (.ofRule .unnamed) := fun _ => trivial
  constructor
  · apply ((first_failure_surfaces _ _ ready unreliable).1 _).mpr
    decide +kernel
  constructor
  · apply (first_failure_surfaces _ _ (readyToo _) unreliable).2.mpr
    decide +kernel
  · apply ((first_failure_surfaces _ _ (readyToo _) unreliable).1 _).mpr
    decide +kernel

end CallOrder
