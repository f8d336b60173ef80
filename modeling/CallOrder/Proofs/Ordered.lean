import CallOrder.Check.Ordered
import CallOrder.Program
import CallOrder.Proofs.Binding
import CallOrder.Proofs.Trace
import CallOrder.Proofs.Walk

/-! The verdict of an order on all bases of a recorded program. -/

namespace CallOrder

def Arena.Mentions (a : Arena) (base : Base) : Prop :=
  ∃ id occurrence, a.get? id = some occurrence ∧ occurrence.base = some base

theorem Arena.mem_bases {a : Arena} {base : Base} : base ∈ a.bases ↔ a.Mentions base := by
  rw [bases, Std.ExtTreeSet.mem_ofList, List.contains_iff_mem, List.mem_filterMap]
  constructor
  · intro given
    rcases given with ⟨occurrence, present, here⟩
    obtain ⟨id, found⟩ := List.mem_iff_getElem?.mp present
    exact ⟨id, occurrence, by rwa [Array.getElem?_toList] at found, here⟩
  · intro given
    rcases given with ⟨id, occurrence, found, here⟩
    rw [get?, ← Array.getElem?_toList] at found
    exact ⟨occurrence, List.mem_of_getElem? found, here⟩

theorem Arena.bases_increasing (a : Arena) :
    a.bases.toList.Pairwise fun first second => Text.bytes first < Text.bytes second :=
  a.bases.ordered_toList.imp fun less => Text.lt_iff_bytes_lt.mp (compare_lt_iff_lt.mp less)

namespace Ordered

variable {rule : Ordered} {context : Context} {program : Program} {dfa : Dfa}
  {operations : OperationTable}

/-- The order's own binding holds; where it has none, that of the context. -/
def Binds (rule : Ordered) (context : Context) (token : Token) (op : Operation) : Prop :=
  rule.order.operations[token]? = some op ∨
    rule.order.operations[token]? = none ∧ context.Binds token op

theorem operations_eq_some_iff (token : Token) (op : Operation) :
    (rule.operations context)[token]? = some op ↔ rule.Binds context token op := by
  rw [operations, getElem?_insertMany_toList, Option.or_eq_some_iff, Context.operations_eq_some_iff]
  rfl

theorem checkBound_ok {root : Pattern} (bound : ∀ token ∈ root.tokens, token ∈ operations) :
    checkBound root operations = .ok () := by
  have all : root.tokens.toList.find? (!operations.contains ·) = none := by
    rw [List.find?_eq_none]
    intro token present
    rw [Std.ExtTreeSet.mem_toList] at present
    rw [Std.ExtTreeMap.contains_iff_mem.mpr (bound token present)]
    exact Bool.false_ne_true
  rw [checkBound, all]

def findingsOn (dfa : Dfa) (info : Rule) (reportPassing : Bool) (operations : OperationTable)
    (program : Program) (base : Base) : List Finding :=
  (dfa.walk info reportPassing program.arena (program.traceOf base operations)).findings

theorem walkAll_eq (info : Rule) (reportPassing : Bool) (bases : List Base) :
    walkAll dfa info reportPassing operations program.queries bases =
      .ok (bases.flatMap (findingsOn dfa info reportPassing operations program)) := by
  induction bases with
  | nil => rfl
  | cons base bases ih =>
      rw [walkAll, ih]
      rfl

def verdictOn (dfa : Dfa) (info : Rule) (reportPassing : Bool) (operations : OperationTable)
    (program : Program) (bases : List Base) : Verdict :=
  .ofFindings (if bases.isEmpty then
      [.inapplicable info "No instances found to check the order rule on."]
    else bases.flatMap (findingsOn dfa info reportPassing operations program))

/-- A judgement in its stages: the automaton, the bindings, the bases and what is found on them. -/
theorem judge_eq (rule : Ordered) (context : Context) (program : Program) :
    rule.judge context program.queries = (do
      let dfa ← rule.order.root.compile rule.settings.limits
      checkBound rule.order.root (rule.operations context)
      (selectedBases rule.selection (rule.operations context) program.queries).map
        (verdictOn dfa context.rule rule.settings.reportPassing (rule.operations context)
          program)) := by
  rw [judge]
  apply bind_congr
  intro dfa
  rw [judgeBy]
  apply bind_congr
  intro _
  cases selectedBases rule.selection (rule.operations context) program.queries with
  | error e => rfl
  | ok bases =>
      rw [ok_bind, Except.map, verdictOn]
      split
      · rfl
      · rw [walkBases_inOrder, walkAll_eq]
        rfl

theorem failures_flatMap (dfa : Dfa) (info : Rule) (reportPassing : Bool)
    (operations : OperationTable) (program : Program) (bases : List Base) :
    ((bases.flatMap (findingsOn dfa info reportPassing operations program)).filter
      (·.isFailure)).map (·.base) =
    (bases.filter fun base => dfa.rejects (program.traceOf base operations)).map some := by
  induction bases with
  | nil => rfl
  | cons base bases ih =>
      rw [List.flatMap_cons, List.filter_append, List.map_append, ih, findingsOn,
        Walk.failures_bases, List.filter_cons]
      split <;> rfl

def failing (dfa : Dfa) (operations : OperationTable) (program : Program) : List Base :=
  program.arena.bases.toList.filter fun base => dfa.rejects (program.traceOf base operations)

theorem mem_failing_iff {limits : Limits} {p : Pattern} (compiled : p.compile limits = .ok dfa)
    (operations : OperationTable) (program : Program) (base : Base) :
    base ∈ failing dfa operations program ↔ program.arena.Mentions base ∧
      (program.traceOf base operations).steps ≠ [] ∧
      (program.traceOf base operations).tokens ∉ p.words := by
  rw [failing, List.mem_filter, Std.ExtTreeSet.mem_toList, Arena.mem_bases,
    Pattern.rejects_iff compiled]

theorem failing_increasing (dfa : Dfa) (operations : OperationTable) (program : Program) :
    (failing dfa operations program).Pairwise fun first second =>
      Text.bytes first < Text.bytes second :=
  program.arena.bases_increasing.filter _

def findingsAll (dfa : Dfa) (info : Rule) (reportPassing : Bool) (operations : OperationTable)
    (program : Program) : List Finding :=
  program.arena.bases.toList.flatMap (findingsOn dfa info reportPassing operations program)

theorem outcome_findingsAll_iff (dfa : Dfa) (info : Rule) (reportPassing : Bool)
    (operations : OperationTable) (program : Program) :
    (Verdict.ofFindings (findingsAll dfa info reportPassing operations program)).outcome = true ↔
      failing dfa operations program = [] := by
  have failures := failures_flatMap dfa info reportPassing operations program
    program.arena.bases.toList
  rw [Verdict.outcome_ofFindings_iff, ← List.map_eq_nil_iff, Verdict.failures, Verdict.ofFindings,
    findingsAll, failures, List.map_eq_nil_iff, failing]

theorem judge_all_eq (everywhere : rule.selection = .all)
    (compiled : rule.order.root.compile rule.settings.limits = .ok dfa)
    (bound : ∀ token ∈ rule.order.root.tokens, token ∈ rule.operations context) :
    rule.judge context program.queries = .ok (.ofFindings
      (if program.arena.bases.toList.isEmpty then
        [.inapplicable context.rule "No instances found to check the order rule on."]
      else findingsAll dfa context.rule rule.settings.reportPassing (rule.operations context)
        program)) := by
  have selected : selectedBases rule.selection (rule.operations context) program.queries =
      .ok program.arena.bases.toList := by rw [everywhere, selectedBases, Program.queries]
  rw [judge_eq, compiled, ok_bind, checkBound_ok bound, ok_bind, selected]
  rfl

theorem calls_traceOf (rule : Ordered) (context : Context) (program : Program) (base : Base) :
    program.Calls (rule.Binds context) base
      (program.traceOf base (rule.operations context)).steps := by
  have same : (fun token op => (rule.operations context)[token]? = some op) = rule.Binds context :=
    funext₂ fun token op => propext (operations_eq_some_iff token op)
  rw [← same]
  exact program.traceOf_calls base (rule.operations context)

/-- A rule that compiles and whose tokens are all bound has a verdict on every program: it fails
once on each base whose calls are not among the words of the order. -/
theorem judge_all_exact (rule : Ordered) (context : Context) (program : Program)
    (everywhere : rule.selection = .all)
    (compiled : rule.order.root.compile rule.settings.limits = .ok dfa)
    (bound : ∀ token ∈ rule.order.root.tokens, ∃ op, rule.Binds context token op) :
    ∃ (verdict : Verdict) (calls : Base → List TraceStep),
      rule.judge context program.queries = .ok verdict ∧
      (∀ base steps, program.Calls (rule.Binds context) base steps ↔ steps = calls base) ∧
      ((∀ base, ¬ program.arena.Mentions base) → verdict.findings =
        [.inapplicable context.rule "No instances found to check the order rule on."]) ∧
      ((∃ base, program.arena.Mentions base) →
        (verdict.outcome = true ↔ ∀ base, program.arena.Mentions base →
          calls base = [] ∨ (calls base).map (·.token) ∈ rule.order.root.words) ∧
        ∃ bases : List Base, verdict.failures.map (·.base) = bases.map some ∧
          bases.Pairwise (fun first second => Text.bytes first < Text.bytes second) ∧
          ∀ base, base ∈ bases ↔ program.arena.Mentions base ∧ calls base ≠ [] ∧
            (calls base).map (·.token) ∉ rule.order.root.words) := by
  have known : ∀ token ∈ rule.order.root.tokens, token ∈ rule.operations context := by
    intro token present
    obtain ⟨op, binds⟩ := bound token present
    exact mem_of_getElem?_eq_some ((operations_eq_some_iff token op).mpr binds)
  refine ⟨_, fun base => (program.traceOf base (rule.operations context)).steps,
    judge_all_eq everywhere compiled known, ?_, ?_, ?_⟩
  · intro base steps
    have own := calls_traceOf rule context program base
    exact ⟨fun calls => calls.unique own, fun same => same ▸ own⟩
  · intro nowhere
    have none : program.arena.bases.toList.isEmpty = true := by
      rw [List.isEmpty_iff, List.eq_nil_iff_forall_not_mem]
      intro base present
      exact nowhere base (Arena.mem_bases.mp (Std.ExtTreeSet.mem_toList.mp present))
    rw [none]
    rfl
  · intro given
    rcases given with ⟨somewhere, mentioned⟩
    have found : somewhere ∈ program.arena.bases.toList :=
      Std.ExtTreeSet.mem_toList.mpr (Arena.mem_bases.mpr mentioned)
    have members := mem_failing_iff compiled (rule.operations context) program
    rw [List.isEmpty_eq_false_iff.mpr (List.ne_nil_of_mem found), if_neg Bool.false_ne_true]
    refine ⟨?_, failing dfa (rule.operations context) program, ?_, failing_increasing _ _ _,
      members⟩
    · rw [outcome_findingsAll_iff, List.eq_nil_iff_forall_not_mem]
      refine forall_congr' fun base => ?_
      rw [members, Trace.tokens]
      grind
    · exact failures_flatMap _ _ _ _ _ _

def sessionRule : Ordered :=
  ⟨⟨.session, .ofList [("open", Operation.any "open"), ("read", Operation.any "read"),
    ("close", Operation.any "close")]⟩, .all, .standard⟩

def filesProgram : Program :=
  ((Program.empty.addOccurrence ⟨"open", "f.open()", "", .zero, some "f", 0, []⟩).addOccurrence
    ⟨"read", "g.read()", "", .zero, some "g", 1, []⟩).addOccurrence
    ⟨"close", "f.close()", "", .zero, some "f", 2, []⟩

theorem files_judged : ∃ (verdict : Verdict) (calls : Base → List TraceStep),
    sessionRule.judge (.ofRule .unnamed) filesProgram.queries = .ok verdict ∧
    verdict.failures.map (·.base) = [some "g"] ∧
    filesProgram.Calls (sessionRule.Binds (.ofRule .unnamed)) "g" (calls "g") ∧
    (calls "g").map (·.token) ∉ sessionRule.order.root.words := by
  have compiles : (sessionRule.order.root.compile sessionRule.settings.limits).toOption.any
      (0 < ·.size) := by
    decide +kernel
  have fails : (sessionRule.judge (.ofRule .unnamed) filesProgram.queries).toOption.any
      (·.failures.map (·.base) = [some "g"]) := by
    decide +kernel
  have everywhere : sessionRule.selection = .all := rfl
  have bound : ∀ token ∈ sessionRule.order.root.tokens,
      ∃ op, sessionRule.Binds (.ofRule .unnamed) token op := by
    intro token present
    have named : token = "open" ∨ token = "read" ∨ token = "close" := by
      simpa [sessionRule, Pattern.session, Pattern.tokens, List.contains_iff_mem] using present
    rcases named with rfl | rfl | rfl
    · exact ⟨.any "open", Or.inl (by decide +kernel)⟩
    · exact ⟨.any "read", Or.inl (by decide +kernel)⟩
    · exact ⟨.any "close", Or.inl (by decide +kernel)⟩
  obtain ⟨dfa, compiled, _⟩ := exists_eq_ok compiles
  obtain ⟨verdict, calls, judged, exact, _, some'⟩ :=
    judge_all_exact sessionRule (.ofRule .unnamed) filesProgram everywhere compiled bound
  obtain ⟨_, bases, failures, _, members⟩ := some' ⟨"f", 0, _, rfl, rfl⟩
  rw [judged] at fails
  have only : verdict.failures.map (·.base) = [some "g"] := of_decide_eq_true fails
  have failing : some "g" ∈ bases.map some := by
    rw [← failures, only]
    exact List.mem_singleton_self _
  obtain ⟨base, isFailing, same⟩ := List.mem_map.mp failing
  rw [Option.some.inj same] at isFailing
  exact ⟨verdict, calls, judged, only, (exact "g" _).mpr rfl, ((members "g").mp isFailing).2.2⟩

end Ordered

end CallOrder
