import CallOrder.Program
import CallOrder.Proofs.Text.ByteOrder

/-! Traces of a recorded program: which calls stand in them, in which order, under which tokens. -/

namespace CallOrder

/-- Where the first of two calls stands before the second: by position, then by number. -/
def TraceStep.Before (first second : TraceStep) : Prop :=
  first.position < second.position ∨
    first.position = second.position ∧ first.occurrence < second.occurrence

namespace TraceStep

variable {step first second : TraceStep} {steps : List TraceStep}

theorem Before.trans {third : TraceStep} (before : first.Before second)
    (after : second.Before third) : first.Before third := by
  rcases before with lower | ⟨level, less⟩
  · rcases after with lowerToo | ⟨levelToo, _⟩
    · exact Or.inl (lower.trans lowerToo)
    · exact Or.inl (levelToo ▸ lower)
  · rcases after with lowerToo | ⟨levelToo, lessToo⟩
    · exact Or.inl (level ▸ lowerToo)
    · exact Or.inr ⟨level.trans levelToo, lt_trans less lessToo⟩

theorem Before.irrefl (step : TraceStep) : ¬ step.Before step := by
  intro given
  rcases given with lower | ⟨_, less⟩
  · exact lt_irrefl _ lower
  · exact lt_irrefl _ less

theorem insert_perm (step : TraceStep) (steps : List TraceStep) :
    (step.insert steps).Perm (step :: steps) := by
  induction steps with
  | nil => exact List.Perm.refl _
  | cons other steps ih =>
      rw [insert]
      split
      · exact (ih.cons other).trans (List.Perm.swap step other steps)
      · exact List.Perm.refl _

theorem mem_insert : first ∈ step.insert steps ↔ first = step ∨ first ∈ steps := by
  rw [(insert_perm step steps).mem_iff, List.mem_cons]

theorem insert_ordered (ordered : steps.Pairwise Before)
    (newest : ∀ other ∈ steps, other.occurrence < step.occurrence) :
    (step.insert steps).Pairwise Before := by
  induction steps with
  | nil => exact List.pairwise_singleton _ step
  | cons other steps ih =>
      obtain ⟨least, rest⟩ := List.pairwise_cons.mp ordered
      obtain ⟨older, olderRest⟩ := List.forall_mem_cons.mp newest
      rw [insert]
      split
      case isTrue low =>
        refine List.pairwise_cons.mpr ⟨?_, ih rest olderRest⟩
        intro third present
        rcases mem_insert.mp present with rfl | later
        · exact (lt_or_eq_of_le low).imp_right fun level => ⟨level, older⟩
        · exact least third later
      case isFalse high =>
        have before : step.Before other := Or.inl (Nat.lt_of_not_le high)
        refine List.pairwise_cons.mpr ⟨?_, ordered⟩
        intro third present
        rcases List.mem_cons.mp present with rfl | later
        · exact before
        · exact before.trans (least third later)

theorem eq_of_ordered {steps others : List TraceStep} (ordered : steps.Pairwise Before)
    (orderedToo : others.Pairwise Before) (same : ∀ step, step ∈ steps ↔ step ∈ others) :
    steps = others := by
  have distinct : ∀ {list : List TraceStep}, list.Pairwise Before → list.Nodup := by
    intro list sorted
    refine sorted.imp ?_
    intro first _ before same
    rcases same with rfl
    exact before.irrefl
  have perm : steps.Perm others :=
    (List.perm_ext_iff_of_nodup (distinct ordered) (distinct orderedToo)).mpr same
  have oneWay : ∀ first second : TraceStep, first ∈ steps → second ∈ others → first.Before second →
      second.Before first → first = second :=
    fun first _ _ _ before after => absurd (before.trans after) (Before.irrefl first)
  exact perm.eq_of_pairwise oneWay ordered orderedToo

end TraceStep

/-- The least token, by bytes, whose operation the occurrence fits. -/
structure Occurrence.CountsAs (binds : Token → Operation → Prop) (occurrence : Occurrence)
    (token : Token) : Prop where
  fits : ∃ op, binds token op ∧ occurrence.fits op = true
  least : ∀ other op, binds other op → occurrence.fits op = true →
    Text.bytes token ≤ Text.bytes other

theorem Occurrence.CountsAs.unique {binds : Token → Operation → Prop} {occurrence : Occurrence}
    {token other : Token} (first : occurrence.CountsAs binds token)
    (second : occurrence.CountsAs binds other) : token = other := by
  obtain ⟨op, bound, fits⟩ := first.fits
  obtain ⟨op', boundToo, fitsToo⟩ := second.fits
  exact le_antisymm (Text.le_iff_bytes_le.mpr (first.least other op' boundToo fitsToo))
    (Text.le_iff_bytes_le.mpr (second.least token op bound fits))

namespace Program

variable {p : Program} {base : Base} {operations : OperationTable} {occurrence : Occurrence}
  {token : Token} {step : TraceStep} {steps : List TraceStep}

/-- The calls of a program on a base that fit a bound operation, in order, each under its token. -/
structure Calls (p : Program) (binds : Token → Operation → Prop) (base : Base)
    (steps : List TraceStep) : Prop where
  ordered : steps.Pairwise TraceStep.Before
  exact : ∀ step, step ∈ steps ↔ ∃ occurrence, p.arena.get? step.occurrence = some occurrence ∧
    occurrence.base = some base ∧ occurrence.position = step.position ∧
    occurrence.CountsAs binds step.token

theorem Calls.unique {binds : Token → Operation → Prop} {others : List TraceStep}
    (calls : p.Calls binds base steps) (callsToo : p.Calls binds base others) : steps = others :=
  TraceStep.eq_of_ordered calls.ordered callsToo.ordered
    fun step => (calls.exact step).trans (callsToo.exact step).symm

theorem label?_countsAs (found : label? operations occurrence = some token) :
    occurrence.CountsAs (fun token op => operations[token]? = some op) token := by
  obtain ⟨⟨_, op⟩, first, rfl⟩ := Option.map_eq_some_iff.mp found
  obtain ⟨fits, earlier, later, split, misfits⟩ := List.find?_eq_some_iff_append.mp first
  have increasing : operations.toList.Pairwise fun first second => first.1 < second.1 :=
    operations.ordered_keys_toList.imp fun less => compare_lt_iff_lt.mp less
  rw [split] at increasing
  have present : (_, op) ∈ operations.toList := List.mem_of_find?_eq_some first
  refine ⟨⟨op, Std.ExtTreeMap.mem_toList_iff_getElem?_eq_some.mp present, fits⟩, ?_⟩
  intro other op' bound fitsToo
  rw [← Std.ExtTreeMap.mem_toList_iff_getElem?_eq_some, split] at bound
  rw [← Text.le_iff_bytes_le]
  rcases List.mem_append.mp bound with before | after
  · have misfit := misfits _ before
    rw [fitsToo] at misfit
    cases misfit
  · rcases List.mem_cons.mp after with same | behind
    · cases same
      exact le_refl _
    · exact ((List.pairwise_cons.mp (List.pairwise_append.mp increasing).2.1).1 _ behind).le

theorem label?_eq_none_iff : label? operations occurrence = none ↔
    ∀ (token : Token) (op : Operation), operations[token]? = some op →
      ¬ occurrence.fits op = true := by
  rw [label?, Option.map_eq_none_iff, List.find?_eq_none]
  simp only [Prod.forall, Std.ExtTreeMap.mem_toList_iff_getElem?_eq_some]

theorem label?_eq_some_iff :
    label? operations occurrence = some token ↔
      occurrence.CountsAs (fun token op => operations[token]? = some op) token := by
  refine ⟨label?_countsAs, ?_⟩
  intro counts
  obtain ⟨op, bound, fits⟩ := counts.fits
  cases found : label? operations occurrence with
  | none => exact absurd fits (label?_eq_none_iff.mp found token op bound)
  | some other => rw [(label?_countsAs found).unique counts]

theorem step?_eq_some_iff {id : OccurrenceId} :
    step? base operations id occurrence = some step ↔
      step.occurrence = id ∧ occurrence.base = some base ∧ occurrence.position = step.position ∧
        occurrence.CountsAs (fun token op => operations[token]? = some op) step.token := by
  rw [step?]
  by_cases here : occurrence.base = some base
  · rw [if_pos here, Option.map_eq_some_iff]
    constructor
    · intro given
      rcases given with ⟨token, found, rfl⟩
      exact ⟨rfl, here, rfl, label?_countsAs found⟩
    · intro given
      rcases given with ⟨rfl, _, position, counts⟩
      refine ⟨step.token, label?_eq_some_iff.mpr counts, ?_⟩
      rw [position]
  · rw [if_neg here]
    simp [here]

theorem extend_ordered (base : Base) (operations : OperationTable) {k : Nat}
    (ordered : steps.Pairwise TraceStep.Before) (older : ∀ step ∈ steps, step.occurrence < k)
    (occurrence : Occurrence) :
    (extend base operations steps (occurrence, k)).Pairwise TraceStep.Before ∧
    (∀ step ∈ extend base operations steps (occurrence, k), step.occurrence < k + 1) ∧
    ∀ step, step ∈ extend base operations steps (occurrence, k) ↔
      step ∈ steps ∨ step? base operations k occurrence = some step := by
  rw [extend]
  cases found : step? base operations k occurrence with
  | none =>
      refine ⟨ordered, fun step present => lt_trans (older step present) (Nat.lt_succ_self k), ?_⟩
      simp
  | some new =>
      obtain ⟨number, _⟩ := step?_eq_some_iff.mp found
      refine ⟨TraceStep.insert_ordered ordered (number ▸ older), ?_, ?_⟩
      · intro step present
        rcases TraceStep.mem_insert.mp present with rfl | earlier
        · rw [number]
          exact Nat.lt_succ_self k
        · exact lt_trans (older step earlier) (Nat.lt_succ_self k)
      · intro step
        rw [TraceStep.mem_insert, Option.some.injEq, eq_comm, or_comm]

theorem foldl_extend (base : Base) (operations : OperationTable) (occurrences : List Occurrence)
    (k : Nat) (ordered : steps.Pairwise TraceStep.Before)
    (older : ∀ step ∈ steps, step.occurrence < k) :
    ((occurrences.zipIdx k).foldl (extend base operations) steps).Pairwise TraceStep.Before ∧
    ∀ step, step ∈ (occurrences.zipIdx k).foldl (extend base operations) steps ↔
      step ∈ steps ∨
        ∃ entry ∈ occurrences.zipIdx k, step? base operations entry.2 entry.1 = some step := by
  -- the next number is above all that stand in the trace, which keeps insertion in order
  induction occurrences generalizing k steps with
  | nil => simp [ordered]
  | cons occurrence occurrences ih =>
      obtain ⟨still, bounded, members⟩ := extend_ordered base operations ordered older occurrence
      obtain ⟨final, all⟩ := ih (k + 1) still bounded
      rw [List.zipIdx_cons, List.foldl_cons]
      refine ⟨final, ?_⟩
      intro step
      rw [all, members, List.exists_mem_cons_iff, or_assoc]

theorem traceOf_addOccurrence (p : Program) (o : Occurrence) (base : Base)
    (operations : OperationTable) : (p.addOccurrence o).traceOf base operations =
      ⟨base, extend base operations (p.traceOf base operations).steps (o, p.arena.size)⟩ := by
  rw [traceOf, traceOf, addOccurrence, Arena.push, Array.toList_push, List.zipIdx_append,
    List.foldl_append, List.zipIdx_singleton, List.foldl_cons, List.foldl_nil, Nat.zero_add,
    Array.length_toList, Arena.size]

theorem traceOf_calls (p : Program) (base : Base) (operations : OperationTable) :
    p.Calls (fun token op => operations[token]? = some op) base
      (p.traceOf base operations).steps := by
  obtain ⟨ordered, members⟩ := foldl_extend base operations p.arena.occurrences.toList 0
    List.Pairwise.nil (by simp)
  refine ⟨ordered, ?_⟩
  intro step
  rw [traceOf, members]
  constructor
  · intro given
    rcases given with nothing | ⟨⟨occurrence, id⟩, present, found⟩
    · cases nothing
    · obtain ⟨rfl, here, position, counts⟩ := step?_eq_some_iff.mp found
      refine ⟨occurrence, ?_, here, position, counts⟩
      rwa [List.mem_zipIdx_iff_getElem?, Array.getElem?_toList] at present
  · intro given
    rcases given with ⟨occurrence, present, here, position, counts⟩
    refine Or.inr ⟨(occurrence, step.occurrence), ?_, ?_⟩
    · rwa [List.mem_zipIdx_iff_getElem?, Array.getElem?_toList]
    · exact step?_eq_some_iff.mpr ⟨rfl, here, position, counts⟩

end Program

end CallOrder
