import CallOrder.Proofs.Ordered
import CallOrder.Proofs.Resolution

/-! The bases of a program are judged one by one: a further call has no part in what an order finds
on other bases than its own, and the flow has no part in it at all. -/

namespace CallOrder

namespace Arena

variable {a : Arena} {o : Occurrence}

theorem codeOf_push {id : OccurrenceId} (known : id < a.size) :
    (a.push o).codeOf id = a.codeOf id := by
  rw [codeOf, codeOf, get?_push, if_neg (Nat.ne_of_lt known)]

theorem exists_push_iff {Has : Occurrence → Prop} (lacks : ¬ Has o) :
    (∃ id occurrence, (a.push o).get? id = some occurrence ∧ Has occurrence) ↔
      ∃ id occurrence, a.get? id = some occurrence ∧ Has occurrence := by
  constructor
  · rintro ⟨id, occurrence, found, has⟩
    rw [get?_push] at found
    split at found
    case isTrue =>
      cases found
      exact absurd has lacks
    case isFalse => exact ⟨id, occurrence, found, has⟩
  · rintro ⟨id, occurrence, found, has⟩
    have known : id < a.size := lt_size_of_get? found
    refine ⟨id, occurrence, ?_, has⟩
    rw [get?_push, if_neg (Nat.ne_of_lt known), found]

end Arena

namespace Walk

variable {dfa : Dfa} {rule : Rule} {reportPassing : Bool} {trace : Trace}

theorem mem_of_firstMissing? {step : TraceStep} {i state : Nat} {steps : List TraceStep}
    (stops : firstMissing? dfa i steps = some (step, state)) : step ∈ steps := by
  induction steps generalizing i with
  | nil => cases stops
  | cons first steps ih =>
      rw [firstMissing?] at stops
      cases next : dfa.next? i first.token with
      | none =>
          rw [next] at stops
          cases stops
          exact List.mem_cons_self
      | some j =>
          rw [next] at stops
          exact List.mem_cons_of_mem _ (ih stops)

theorem walk_congr {a b : Arena}
    (same : ∀ step ∈ trace.steps, a.codeOf step.occurrence = b.codeOf step.occurrence) :
    dfa.walk rule reportPassing a trace = dfa.walk rule reportPassing b trace := by
  rw [Dfa.walk, Dfa.walk]
  cases trace.steps.getLast? with
  | none => rfl
  | some last =>
      cases stops : firstMissing? dfa dfa.start trace.steps with
      | none => rfl
      | some stop =>
          have code := same stop.1 (mem_of_firstMissing? stops)
          simp only [missingTransition, code]

theorem base_of_mem_conclusion {last : TraceStep} {state : Nat} {f : Finding}
    (found : f ∈ conclusion dfa rule reportPassing trace last state) :
    f.base = some trace.base := by
  rw [conclusion] at found
  split at found
  · cases reportPassing with
    | true =>
        obtain rfl := List.mem_singleton.mp found
        rfl
    | false => cases found
  · obtain rfl := List.mem_singleton.mp found
    rfl

theorem base_of_mem_findings {a : Arena} {f : Finding}
    (found : f ∈ (dfa.walk rule reportPassing a trace).findings) : f.base = some trace.base := by
  rw [Dfa.walk] at found
  cases ending : trace.steps.getLast? with
  | none =>
      rw [ending] at found
      cases found
  | some last =>
      cases stops : firstMissing? dfa dfa.start trace.steps with
      | none =>
          rw [ending, stops] at found
          exact base_of_mem_conclusion found
      | some stop =>
          rw [ending, stops] at found
          obtain rfl := List.mem_singleton.mp found
          rfl

end Walk

namespace Program

variable {p : Program} {o : Occurrence} {base : Base} {operations : OperationTable}

theorem traceOf_addOccurrence_elsewhere (elsewhere : o.base ≠ some base) :
    (p.addOccurrence o).traceOf base operations = p.traceOf base operations := by
  rw [traceOf_addOccurrence, extend, step?, if_neg elsewhere]
  rfl

theorem arena_append (additions : List Addition) {more : List Addition}
    (flowOnly : ∀ addition ∈ more, addition.occurrence? = none) :
    (ofAdditions (additions ++ more)).arena = (ofAdditions additions).arena := by
  induction more using List.reverseRecOn with
  | nil => rw [List.append_nil]
  | append_singleton more last ih =>
      have lastFlow := flowOnly last List.mem_concat_self
      rw [← List.append_assoc, ofAdditions_append, arena_add, lastFlow]
      exact ih fun addition present => flowOnly addition (List.mem_append_left _ present)

theorem known_of_mem_traceOf {step : TraceStep}
    (present : step ∈ (p.traceOf base operations).steps) : step.occurrence < p.arena.size := by
  obtain ⟨_, found, _⟩ := ((p.traceOf_calls base operations).exact step).mp present
  exact Arena.lt_size_of_get? found

end Program

theorem filter_bases_eq {test : Base → Bool} {first second : Std.ExtTreeSet Base}
    (same : ∀ base, test base = true → (base ∈ first ↔ base ∈ second)) :
    first.toList.filter test = second.toList.filter test := by
  rw [← Std.ExtTreeSet.toList_filter, ← Std.ExtTreeSet.toList_filter]
  apply congrArg
  apply Std.ExtTreeSet.ext_mem
  intro base
  simp only [Std.ExtTreeSet.mem_filter, Std.ExtTreeSet.get_eq, exists_prop]
  exact and_congr_left (same base)

/-- What a verdict has to say on bases other than `base`. -/
def Verdict.beside (base : Option Base) (v : Verdict) : List Finding :=
  v.findings.filter fun f => f.base ≠ none ∧ f.base ≠ base

namespace Ordered

variable {dfa : Dfa} {info : Rule} {reportPassing : Bool} {operations : OperationTable}
  {program : Program} {o : Occurrence} {base : Base}

theorem base_of_mem_findingsOn {f : Finding}
    (found : f ∈ findingsOn dfa info reportPassing operations program base) :
    f.base = some base :=
  Walk.base_of_mem_findings found

theorem findingsOn_addOccurrence (elsewhere : o.base ≠ some base) :
    findingsOn dfa info reportPassing operations (program.addOccurrence o) base =
      findingsOn dfa info reportPassing operations program base := by
  rw [findingsOn, findingsOn, Program.traceOf_addOccurrence_elsewhere elsewhere]
  apply congrArg Walk.findings
  apply Walk.walk_congr
  intro step present
  exact Arena.codeOf_push (Program.known_of_mem_traceOf present)

theorem filter_findingsOn (except : Option Base) (base : Base) :
    (findingsOn dfa info reportPassing operations program base).filter
        (fun f => f.base ≠ none ∧ f.base ≠ except) =
      if some base ≠ except then findingsOn dfa info reportPassing operations program base
      else [] := by
  split
  case isTrue differs =>
    rw [List.filter_eq_self]
    intro f found
    rw [base_of_mem_findingsOn found]
    exact decide_eq_true ⟨Option.some_ne_none base, differs⟩
  case isFalse equal =>
    rw [List.filter_eq_nil_iff]
    intro f found
    rw [base_of_mem_findingsOn found]
    exact fun given => equal (of_decide_eq_true given).2

theorem filter_flatMap_findingsOn (except : Option Base) (bases : List Base) :
    (bases.flatMap (findingsOn dfa info reportPassing operations program)).filter
        (fun f => f.base ≠ none ∧ f.base ≠ except) =
      (bases.filter (some · ≠ except)).flatMap
        (findingsOn dfa info reportPassing operations program) := by
  induction bases with
  | nil => rfl
  | cons base bases ih =>
      rw [List.flatMap_cons, List.filter_append, ih, filter_findingsOn]
      by_cases differs : some base ≠ except
      · simp [differs]
      · simp [differs]

theorem beside_verdictOn (except : Option Base) (bases : List Base) :
    (verdictOn dfa info reportPassing operations program bases).beside except =
      (bases.filter (some · ≠ except)).flatMap
        (findingsOn dfa info reportPassing operations program) := by
  cases bases with
  | nil => rfl
  | cons base bases => exact filter_flatMap_findingsOn except (base :: bases)

theorem beside_verdictOn_addOccurrence {bases later : List Base}
    (same : later.filter (some · ≠ o.base) = bases.filter (some · ≠ o.base)) :
    (verdictOn dfa info reportPassing operations (program.addOccurrence o) later).beside o.base =
      (verdictOn dfa info reportPassing operations program bases).beside o.base := by
  rw [beside_verdictOn, beside_verdictOn, same]
  apply List.flatMap_congr
  intro base present
  apply findingsOn_addOccurrence
  have differs := of_decide_eq_true (List.mem_filter.mp present).2
  exact Ne.symm differs

theorem mem_basesFitting (indexed : program.arena.Indexed) (op : Operation) :
    base ∈ Std.ExtTreeSet.ofList ((program.resolveFitting op).toList.filterMap fun id =>
        (program.arena.get? id).bind (·.base)) ↔
      ∃ id occurrence, program.arena.get? id = some occurrence ∧
        occurrence.Matches op ∧ occurrence.base = some base := by
  rw [Std.ExtTreeSet.mem_ofList, List.contains_iff_mem, List.mem_filterMap]
  simp only [Std.ExtTreeSet.mem_toList, Program.mem_resolveFitting indexed, Option.bind_eq_some_iff]
  constructor
  · rintro ⟨id, ⟨occurrence, found, fits⟩, same, foundToo, here⟩
    obtain rfl := Option.some.inj (found.symm.trans foundToo)
    exact ⟨id, occurrence, found, fits, here⟩
  · rintro ⟨id, occurrence, found, fits, here⟩
    exact ⟨id, ⟨occurrence, found, fits⟩, occurrence, found, here⟩

theorem selectedBases_addOccurrence (indexed : program.arena.Indexed)
    (selection : BaseSelection) (operations : OperationTable) (o : Occurrence) :
    (selectedBases selection operations (program.addOccurrence o).queries).map
        (·.filter (some · ≠ o.base)) =
      (selectedBases selection operations program.queries).map (·.filter (some · ≠ o.base)) := by
  cases selection with
  | explicit bases => rfl
  | all =>
      apply congrArg Except.ok
      apply filter_bases_eq
      intro base differs
      rw [Arena.mem_bases, Arena.mem_bases]
      apply Arena.exists_push_iff
      exact Ne.symm (of_decide_eq_true differs)
  | ofToken token =>
      rw [selectedBases, selectedBases]
      cases operations[token]? with
      | none => rfl
      | some op =>
          apply congrArg Except.ok
          apply filter_bases_eq
          intro base differs
          -- the new call may fit the operation, but it does so on its own base
          have lacks : ¬ (o.Matches op ∧ o.base = some base) :=
            fun has => of_decide_eq_true differs has.2.symm
          have later : (program.addOccurrence o).arena.Indexed := Arena.push_indexed indexed o
          calc
            _ ↔ _ := mem_basesFitting later op
            _ ↔ _ := Arena.exists_push_iff lacks
            _ ↔ _ := (mem_basesFitting indexed op).symm

theorem judge_addOccurrence (rule : Ordered) (context : Context)
    (indexed : program.arena.Indexed) (o : Occurrence) :
    (rule.judge context (program.addOccurrence o).queries).map (·.beside o.base) =
      (rule.judge context program.queries).map (·.beside o.base) := by
  rw [judge_eq, judge_eq]
  -- the order and its bindings are checked before the program is looked at
  cases rule.order.root.compile rule.settings.limits with
  | error e => rfl
  | ok dfa =>
      cases checkBound rule.order.root (rule.operations context) with
      | error e => rfl
      | ok _ =>
          have selected :=
            selectedBases_addOccurrence indexed rule.selection (rule.operations context) o
          rw [ok_bind, ok_bind, ok_bind, ok_bind, map_map, map_map]
          apply map_eq_of_map_eq selected
          intro later bases same
          exact beside_verdictOn_addOccurrence same

theorem judge_congr_arena (rule : Ordered) (context : Context) {p q : Program}
    (same : p.arena = q.arena) :
    rule.judge context p.queries = rule.judge context q.queries := by
  obtain ⟨arena, flow⟩ := p
  obtain ⟨_, otherFlow⟩ := q
  obtain rfl : arena = _ := same
  have selected : selectedBases rule.selection (rule.operations context)
      (Program.mk arena flow).queries = selectedBases rule.selection (rule.operations context)
        (Program.mk arena otherFlow).queries := by
    cases rule.selection <;> rfl
  rw [judge_eq, judge_eq, selected]
  rfl

/-- Whatever has been recorded and whatever the rule selects, a further call leaves errors as they
are, and what is found on other bases than its own, in its order; more flow leaves everything as it
is. -/
theorem bases_independent (rule : Ordered) (context : Context) (additions : List Program.Addition) :
    (∀ o : Occurrence,
      (rule.judge context ((Program.ofAdditions additions).addOccurrence o).queries).map
          (·.beside o.base) =
        (rule.judge context (Program.ofAdditions additions).queries).map (·.beside o.base)) ∧
    ∀ more : List Program.Addition, (∀ addition ∈ more, addition.occurrence? = none) →
      rule.judge context (Program.ofAdditions (additions ++ more)).queries =
        rule.judge context (Program.ofAdditions additions).queries := by
  constructor
  · exact rule.judge_addOccurrence context (Program.ofAdditions_indexed additions)
  · intro more flowOnly
    exact rule.judge_congr_arena context (Program.arena_append additions flowOnly)

def openedHistory : List Program.Addition :=
  [.occurrence ⟨"open", "f.open()", "", .zero, some "f", 0, []⟩,
    .occurrence ⟨"read", "g.read()", "", .zero, some "g", 1, []⟩]

def fileClosed : Occurrence := ⟨"close", "f.close()", "", .zero, some "f", 2, []⟩

def openedFlow : List Program.Addition := [.flow 0 1, .chain [1, 0], .chain [0, 7, 1]]

theorem opened_independent : ∃ before after : Verdict,
    sessionRule.judge (.ofRule .unnamed) (Program.ofAdditions openedHistory).queries = .ok before ∧
    sessionRule.judge (.ofRule .unnamed)
      ((Program.ofAdditions openedHistory).addOccurrence fileClosed).queries = .ok after ∧
    before.findings.map (·.base) = [some "f", some "g"] ∧
    after.findings.map (·.base) = [some "g"] ∧
    after.findings = before.beside (some "f") ∧
    (∀ addition ∈ openedFlow, addition.occurrence? = none) ∧
    sessionRule.judge (.ofRule .unnamed)
      (Program.ofAdditions (openedHistory ++ openedFlow)).queries = .ok before := by
  have runs : (sessionRule.judge (.ofRule .unnamed)
      (Program.ofAdditions openedHistory).queries).toOption.any
      (·.findings.map (·.base) = [some "f", some "g"]) := by
    decide +kernel
  have runsToo : (sessionRule.judge (.ofRule .unnamed)
      ((Program.ofAdditions openedHistory).addOccurrence fileClosed).queries).toOption.any
      fun v => v.findings.map (·.base) = [some "g"] ∧ v.beside (some "f") = v.findings := by
    decide +kernel
  have flowOnly : ∀ addition ∈ openedFlow, addition.occurrence? = none := by decide +kernel
  obtain ⟨calls, flow⟩ := bases_independent sessionRule (.ofRule .unnamed) openedHistory
  obtain ⟨before, judged, found⟩ := exists_eq_ok runs
  obtain ⟨after, judgedToo, foundToo⟩ := exists_eq_ok runsToo
  obtain ⟨later, whole⟩ := of_decide_eq_true foundToo
  have same := calls fileClosed
  rw [judged, judgedToo] at same
  have beside : after.beside (some "f") = before.beside (some "f") := Except.ok.inj same
  exact ⟨before, after, judged, judgedToo, of_decide_eq_true found, later, whole ▸ beside, flowOnly,
    (flow openedFlow flowOnly).trans judged⟩

end Ordered

end CallOrder
