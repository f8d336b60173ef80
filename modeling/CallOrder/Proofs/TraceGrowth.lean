import CallOrder.Proofs.History
import CallOrder.Proofs.Trace

/-!
Traces of programs that grow. Main statement: after any history a trace holds each call that counts
on its base once and in order, and a further call is put in without any change to the others.
-/

namespace CallOrder

def Occurrence.CountsOn (o : Occurrence) (base : Base) (operations : OperationTable) : Prop :=
  o.base = some base ∧ ∃ (token : Token) (op : Operation),
    operations[token]? = some op ∧ o.fits op = true

namespace TraceStep

variable {step : TraceStep} {steps : List TraceStep}

/-- The later steps are the earlier ones with one more, which stands directly behind all those at
its position or before it. -/
def PutIn (step : TraceStep) (earlier later : List TraceStep) : Prop :=
  ∃ front back, earlier = front ++ back ∧ later = front ++ step :: back ∧
    (∀ other ∈ front, other.position ≤ step.position) ∧
    ∀ other ∈ back, step.position < other.position

theorem insert_putIn (level : steps.Pairwise fun first second => first.position ≤ second.position) :
    step.PutIn steps (step.insert steps) := by
  induction steps with
  | nil => exact ⟨[], [], rfl, rfl, by simp, by simp⟩
  | cons first steps ih =>
      obtain ⟨least, rest⟩ := List.pairwise_cons.mp level
      rw [insert]
      split
      case isTrue low =>
        obtain ⟨front, back, split, put, below, above⟩ := ih rest
        exact ⟨first :: front, back, congrArg (first :: ·) split, congrArg (first :: ·) put,
          List.forall_mem_cons.mpr ⟨low, below⟩, above⟩
      case isFalse high =>
        have above : step.position < first.position := Nat.lt_of_not_le high
        refine ⟨[], first :: steps, rfl, rfl, by simp, ?_⟩
        exact List.forall_mem_cons.mpr
          ⟨above, fun other later => above.trans_le (least other later)⟩

theorem Before.position_le {first second : TraceStep} (before : first.Before second) :
    first.position ≤ second.position := by
  rcases before with lower | ⟨level, _⟩
  · exact lower.le
  · exact level.le

end TraceStep

namespace Program

variable {p : Program} {base : Base} {operations : OperationTable} {steps : List TraceStep}
  {o : Occurrence}

theorem exists_countsAs_iff :
    (∃ token, o.CountsAs (fun token op => operations[token]? = some op) token) ↔
      ∃ (token : Token) (op : Operation), operations[token]? = some op ∧ o.fits op = true := by
  constructor
  · rintro ⟨token, counts⟩
    obtain ⟨op, bound, fits⟩ := counts.fits
    exact ⟨token, op, bound, fits⟩
  · rintro ⟨token, op, bound, fits⟩
    cases found : label? operations o with
    | some first => exact ⟨first, label?_countsAs found⟩
    | none => exact absurd fits (label?_eq_none_iff.mp found token op bound)

theorem step?_eq_none_iff {id : OccurrenceId} :
    step? base operations id o = none ↔ ¬ o.CountsOn base operations := by
  rw [Option.eq_none_iff_forall_ne_some, Occurrence.CountsOn, ← exists_countsAs_iff]
  constructor
  · rintro nothing ⟨here, token, counts⟩
    exact nothing ⟨id, token, o.position⟩ (step?_eq_some_iff.mpr ⟨rfl, here, rfl, counts⟩)
  · intro passed step found
    obtain ⟨_, here, _, counts⟩ := step?_eq_some_iff.mp found
    exact passed ⟨here, step.token, counts⟩

theorem Calls.nodup {binds : Token → Operation → Prop} (calls : p.Calls binds base steps) :
    (steps.map (·.occurrence)).Nodup := by
  rw [List.Nodup, List.pairwise_map]
  refine calls.ordered.imp_of_mem ?_
  intro first second present presentToo before same
  obtain ⟨one, found, _, position, _⟩ := (calls.exact first).mp present
  obtain ⟨other, foundToo, _, positionToo, _⟩ := (calls.exact second).mp presentToo
  -- both steps are at the position of their common call, and neither number is the lower one
  rw [same, foundToo] at found
  cases found
  rcases before with lower | ⟨_, less⟩
  · exact absurd (position.symm.trans positionToo) lower.ne
  · exact absurd same less.ne

theorem Calls.mem_occurrences (calls : p.Calls (fun token op => operations[token]? = some op) base
    steps) (id : OccurrenceId) : id ∈ steps.map (·.occurrence) ↔
      ∃ o, p.arena.get? id = some o ∧ o.CountsOn base operations := by
  rw [List.mem_map]
  constructor
  · rintro ⟨step, present, rfl⟩
    obtain ⟨o, found, here, _, counts⟩ := (calls.exact step).mp present
    exact ⟨o, found, here, exists_countsAs_iff.mp ⟨_, counts⟩⟩
  · rintro ⟨o, found, here, fits⟩
    obtain ⟨token, counts⟩ := exists_countsAs_iff.mpr fits
    exact ⟨⟨id, token, o.position⟩, (calls.exact _).mpr ⟨o, found, here, rfl, counts⟩, rfl⟩

theorem traceOf_addOccurrence_cases (p : Program) (o : Occurrence) (base : Base)
    (operations : OperationTable) :
    (¬ o.CountsOn base operations →
      (p.addOccurrence o).traceOf base operations = p.traceOf base operations) ∧
    (o.CountsOn base operations → ∃ token,
      o.CountsAs (fun token op => operations[token]? = some op) token ∧
      TraceStep.PutIn ⟨p.arena.size, token, o.position⟩ (p.traceOf base operations).steps
        ((p.addOccurrence o).traceOf base operations).steps) := by
  rw [traceOf_addOccurrence]
  constructor
  · intro passed
    rw [extend, step?_eq_none_iff.mpr passed]
    rfl
  · rintro ⟨here, fits⟩
    obtain ⟨token, counts⟩ := exists_countsAs_iff.mpr fits
    have own : step? base operations p.arena.size o = some ⟨p.arena.size, token, o.position⟩ :=
      step?_eq_some_iff.mpr ⟨rfl, here, rfl, counts⟩
    refine ⟨token, counts, ?_⟩
    rw [extend, own]
    exact TraceStep.insert_putIn
      ((p.traceOf_calls base operations).ordered.imp TraceStep.Before.position_le)

/-- Whatever has been recorded, a trace has one step for each call on its base that fits some
operation and no other steps, in the order of positions and then of numbers, each at the position of
its call and under the least token, by bytes, that the call fits. A further call leaves the trace as
it is unless it counts on the base, and then has its own step put in behind those that are not
later. -/
theorem traces_exact (additions : List Addition) (base : Base) (operations : OperationTable) :
    ∃ trace, (ofAdditions additions).queries.traceOf base operations = .ok trace ∧
      trace.base = base ∧ trace.occurrences.Nodup ∧
      (∀ id, id ∈ trace.occurrences ↔
        ∃ o, (occurrencesOf additions)[id]? = some o ∧ o.CountsOn base operations) ∧
      trace.steps.Pairwise TraceStep.Before ∧
      (∀ step ∈ trace.steps, ∃ o, (occurrencesOf additions)[step.occurrence]? = some o ∧
        step.position = o.position ∧
        o.CountsAs (fun token op => operations[token]? = some op) step.token) ∧
      ∀ o, ∃ later,
        (ofAdditions (additions ++ [.occurrence o])).queries.traceOf base operations = .ok later ∧
        (¬ o.CountsOn base operations → later = trace) ∧
        (o.CountsOn base operations → ∃ token, later.base = base ∧
          o.CountsAs (fun token op => operations[token]? = some op) token ∧
          TraceStep.PutIn ⟨(occurrencesOf additions).length, token, o.position⟩ trace.steps
            later.steps) := by
  have calls := (ofAdditions additions).traceOf_calls base operations
  refine ⟨_, rfl, rfl, calls.nodup, ?_, calls.ordered, ?_, ?_⟩
  · intro id
    simp only [← get?_ofAdditions]
    exact calls.mem_occurrences id
  · intro step present
    obtain ⟨o, found, _, position, counts⟩ := (calls.exact step).mp present
    exact ⟨o, get?_ofAdditions additions _ ▸ found, position.symm, counts⟩
  · intro o
    obtain ⟨passes, puts⟩ := (ofAdditions additions).traceOf_addOccurrence_cases o base operations
    rw [size_ofAdditions] at puts
    rw [ofAdditions_append]
    refine ⟨_, rfl, passes, fun counts => ?_⟩
    obtain ⟨token, least, put⟩ := puts counts
    exact ⟨token, rfl, least, put⟩

def shuffled : List Addition :=
  [.occurrence ⟨"close", "f.close()", "", .zero, some "f", 2, []⟩,
    .occurrence ⟨"open", "f.open()", "", .zero, some "f", 0, []⟩,
    .occurrence ⟨"open", "g.open()", "", .zero, some "g", 0, []⟩, .chain [1, 7, 0],
    .occurrence ⟨"open", "f.open(again)", "", .zero, some "f", 0, []⟩]

def shuffledTable : OperationTable :=
  .ofList [("opened", Operation.any "open"), ("closed", .any "close"), ("begun", .any "open")]

def openedLate : Occurrence := ⟨"open", "f.open(late)", "", .zero, some "f", 0, []⟩

def openedElsewhere : Occurrence := { openedLate with base := some "g" }

theorem shuffled_put_in : ∃ trace later,
    (ofAdditions shuffled).queries.traceOf "f" shuffledTable = .ok trace ∧
    trace.occurrences = [1, 3, 0] ∧ trace.tokens = ["begun", "begun", "closed"] ∧
    (ofAdditions (shuffled ++ [.occurrence openedLate])).queries.traceOf "f" shuffledTable =
      .ok later ∧
    TraceStep.PutIn ⟨4, "begun", 0⟩ trace.steps later.steps ∧
    (ofAdditions (shuffled ++ [.occurrence openedElsewhere])).queries.traceOf "f" shuffledTable =
      .ok trace := by
  obtain ⟨trace, traced, _, _, _, _, _, grows⟩ := traces_exact shuffled "f" shuffledTable
  obtain ⟨later, tracedToo, _, puts⟩ := grows openedLate
  obtain ⟨token, _, counts, put⟩ := puts ⟨rfl, "begun", .any "open", by decide +kernel, by decide⟩
  obtain ⟨same, tracedElsewhere, passes, _⟩ := grows openedElsewhere
  have least : label? shuffledTable openedLate = some "begun" := by decide +kernel
  obtain rfl := counts.unique (label?_countsAs least)
  have elsewhere : ¬ openedElsewhere.CountsOn "f" shuffledTable := by
    intro counts
    exact absurd counts.1 (by decide)
  refine ⟨trace, later, traced, ?_, ?_, tracedToo, put, passes elsewhere ▸ tracedElsewhere⟩
  · cases traced
    decide +kernel
  · cases traced
    decide +kernel

end Program

end CallOrder
