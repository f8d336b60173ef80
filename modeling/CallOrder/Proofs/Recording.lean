import CallOrder.Proofs.History
import Mathlib.Data.Set.Card

/-!
What recording flow does to a program. Main statement: a chain adds the neighbours among its known
numbers up to the first unknown one, which is what its error names, and nothing but the flow is
changed. Each pair is counted once.
-/

namespace CallOrder.Program

def edges (p : Program) : Set (OccurrenceId × OccurrenceId) :=
  {pair | pair.2 ∈ p.successors pair.1}

def neighbours (ids : List OccurrenceId) : Set (OccurrenceId × OccurrenceId) :=
  {pair | [pair.1, pair.2] <:+: ids}

/-- All that is asked of a program but its flow has the same answers. -/
structure SameCalls (p q : Program) : Prop where
  arena : q.arena = p.arena
  resolve : ∀ op, q.queries.resolve op = p.queries.resolve op
  resolveFitting : ∀ op, q.queries.resolveFitting op = p.queries.resolveFitting op
  traceOf : ∀ base operations, q.queries.traceOf base operations = p.queries.traceOf base operations

/-- No occurrence is recorded twice behind the same one. -/
def Distinct (p : Program) : Prop := ∀ source, (p.successors source).Nodup

variable {p q : Program} {source target : OccurrenceId}

theorem sameCalls_of_arena (same : q.arena = p.arena) : p.SameCalls q := by
  cases p
  cases q
  cases same
  exact ⟨rfl, fun _ => rfl, fun _ => rfl, fun _ _ => rfl⟩

theorem Widens.edges_eq {more : OccurrenceId → OccurrenceId → Prop} (widens : p.Widens q more) :
    q.edges = p.edges ∪ {pair | more pair.1 pair.2} := by
  ext pair
  exact widens.successors pair.1 pair.2

theorem addFlow_distinct (distinct : p.Distinct) (added : p.addFlow source target = .ok q) :
    q.Distinct := by
  rcases addFlow_cases added with ⟨known, ⟨_, rfl⟩ | ⟨new, rfl⟩⟩
  · exact distinct
  · intro a
    rw [successors_modify p known.1]
    by_cases here : a = source
    · subst here
      rw [if_pos rfl, ← List.concat_eq_append]
      exact (distinct a).concat new
    · simp [here, distinct a]

theorem addChain_distinct (distinct : p.Distinct) (ids : List OccurrenceId) :
    (p.addChain ids).2.Distinct := by
  fun_induction addChain p ids with
  | case1 p source target rest q added ih => exact ih (addFlow_distinct distinct added)
  | case2 p source target rest e failed => exact distinct
  | case3 ids p short => exact distinct

theorem add_distinct (distinct : p.Distinct) (addition : Addition) : (p.add addition).Distinct := by
  cases addition with
  | occurrence o =>
      intro a
      rw [add, successors_addOccurrence]
      exact distinct a
  | flow source target =>
      rw [add]
      cases added : p.addFlow source target with
      | ok q => exact addFlow_distinct distinct added
      | error e => exact distinct
  | chain ids => exact addChain_distinct distinct ids

theorem ofAdditions_distinct (additions : List Addition) : (ofAdditions additions).Distinct := by
  induction additions using List.reverseRecOn with
  | nil =>
      intro source
      simp [ofAdditions, empty, successors]
  | append_singleton additions last ih =>
      rw [ofAdditions_append]
      exact add_distinct ih last

theorem edges_eq_biUnion (p : Program) :
    p.edges = ((Finset.range p.flow.size).biUnion fun source =>
      (p.successors source).toFinset.image (Prod.mk source) : Finset _) := by
  have inside : ∀ source target, target ∈ p.successors source → source < p.flow.size := by
    intro source target present
    by_contra beyond
    simp [successors_of_size_le (Nat.le_of_not_lt beyond)] at present
  ext pair
  simpa [edges, Prod.ext_iff] using inside pair.1 pair.2

theorem encard_edges (distinct : p.Distinct) : p.edges.encard = p.flowCount := by
  have apart : ∀ first ∈ Finset.range p.flow.size, ∀ second ∈ Finset.range p.flow.size,
      first ≠ second → Disjoint ((p.successors first).toFinset.image (Prod.mk first))
        ((p.successors second).toFinset.image (Prod.mk second)) := by
    intro first _ second _ differs
    rw [Finset.disjoint_left]
    intro pair listed listedToo
    simp only [Finset.mem_image] at listed listedToo
    rcases listed with ⟨_, _, rfl⟩
    rcases listedToo with ⟨_, _, same⟩
    exact differs (congrArg Prod.fst same).symm
  have row : ∀ source ∈ Finset.range p.flow.size,
      ((p.successors source).toFinset.image (Prod.mk source)).card =
        (p.flow.getD source []).length := by
    intro source _
    rw [Finset.card_image_of_injective _ (Prod.mk_right_injective source),
      List.toFinset_card_of_nodup (distinct source)]
    rfl
  rw [edges_eq_biUnion, Set.encard_coe_eq_coe_finsetCard, Finset.card_biUnion apart,
    Finset.sum_congr rfl row, Search.sum_length_getD]
  rfl

theorem addChain_fst (p : Program) (ids : List OccurrenceId) :
    (p.addChain ids).1 = if ids.length < 2 then .ok () else
      (ids.find? fun id => p.flow.size ≤ id).elim (.ok ())
        fun id => .error (.unknownOccurrence id) := by
  fun_induction addChain p ids with
  | case1 p source target rest q added ih =>
      have known := (addFlow_cases added).1
      rw [(widens_of_addFlow added).size] at ih
      cases rest with
      | nil => simpa [known] using ih
      | cons third rest => simpa [known] using ih
  | case2 p source target rest e failed =>
      rcases addFlow_error (unknown_of_addFlow failed) with ⟨id, first, named⟩
      rw [named] at failed
      cases failed
      have front : (source :: target :: rest).find? (fun id => p.flow.size ≤ id) = some id := by
        change ([source, target] ++ rest).find? _ = some id
        rw [List.find?_append, first, Option.some_or]
      simp [front]
  | case3 ids p short =>
      rcases ids with _ | ⟨source, _ | ⟨target, rest⟩⟩
      · rfl
      · rfl
      · exact (short source target rest rfl).elim

theorem addChain_ok_iff (p : Program) (ids : List OccurrenceId) :
    (p.addChain ids).1 = .ok () ↔ ids.length < 2 ∨ ∀ id ∈ ids, id < p.flow.size := by
  rw [addChain_fst]
  split
  case isTrue short => simp [short]
  case isFalse long =>
    cases first : ids.find? fun id => p.flow.size ≤ id with
    | none => simpa [long] using first
    | some id =>
        have beyond : p.flow.size ≤ id := by simpa using List.find?_some first
        have listed : id ∈ ids := List.mem_of_find?_eq_some first
        simpa [long] using ⟨id, listed, beyond⟩

theorem addChain_error_iff (p : Program) (ids : List OccurrenceId) (e : QueryError) :
    (p.addChain ids).1 = .error e ↔ 2 ≤ ids.length ∧
      ∃ id, ids.find? (fun id => p.flow.size ≤ id) = some id ∧ e = .unknownOccurrence id := by
  rw [addChain_fst]
  split
  case isTrue short => simp [short]
  case isFalse long =>
    cases first : ids.find? fun id => p.flow.size ≤ id with
    | none => simp
    | some id => simp [Nat.le_of_not_lt long, eq_comm]

/-- What becomes of a program with `known` occurrences when a chain is added, and how that ends. -/
structure Chained (p : Program) (known : Nat) (ids : List OccurrenceId)
    (ended : Except QueryError Unit) (q : Program) : Prop where
  ok : ended = .ok () ↔ ids.length < 2 ∨ ∀ id ∈ ids, id < known
  error : ∀ e, ended = .error e ↔ 2 ≤ ids.length ∧
    ∃ id, ids.find? (fun id => known ≤ id) = some id ∧ e = .unknownOccurrence id
  edges : q.edges = p.edges ∪ neighbours (ids.takeWhile (· < known))
  count : q.edges.encard = q.flowCount
  sameCalls : p.SameCalls q

theorem addChain_chained (distinct : p.Distinct) (ids : List OccurrenceId) :
    p.Chained p.flow.size ids (p.addChain ids).1 (p.addChain ids).2 where
  ok := p.addChain_ok_iff ids
  error := p.addChain_error_iff ids
  edges := (p.addChain_widens ids).edges_eq
  count := encard_edges (addChain_distinct distinct ids)
  sameCalls := sameCalls_of_arena (p.addChain_widens ids).arena

/-- Whatever has been recorded, there is one edge for each pair that some addition records, and that
is how many are counted. A chain ends well exactly if it has fewer than two numbers or knows all of
them, and else names the first unknown one; in any case its known front is recorded. A step that is
refused changes nothing. -/
theorem insertion_exact (additions : List Addition) :
    (ofAdditions additions).edges = {pair | Recorded additions pair.1 pair.2} ∧
    (ofAdditions additions).edges.encard = (ofAdditions additions).flowCount ∧
    (∀ ids, (ofAdditions additions).Chained (occurrencesOf additions).length ids
      ((ofAdditions additions).addChain ids).1 ((ofAdditions additions).addChain ids).2) ∧
    ∀ source target,
      (∀ grown, (ofAdditions additions).addFlow source target = .ok grown →
        grown.edges = (ofAdditions additions).edges ∪ {(source, target)} ∧
        (ofAdditions additions).SameCalls grown) ∧
      ∀ e, ((ofAdditions additions).addFlow source target = .error e ↔
          ∃ id, [source, target].find? (fun id => (occurrencesOf additions).length ≤ id) = some id ∧
            e = .unknownOccurrence id) ∧
        ((ofAdditions additions).addFlow source target = .error e →
          ofAdditions (additions ++ [.flow source target]) = ofAdditions additions) := by
  have distinct := ofAdditions_distinct additions
  rw [← size_flow_ofAdditions]
  refine ⟨?_, encard_edges distinct, addChain_chained distinct, ?_⟩
  · ext pair
    exact mem_successors_ofAdditions additions
  · intro source target
    constructor
    · intro grown added
      have widens := widens_of_addFlow added
      refine ⟨?_, sameCalls_of_arena widens.arena⟩
      rw [widens.edges_eq]
      ext pair
      simp [Prod.ext_iff, or_comm]
    · intro e
      refine ⟨addFlow_error_iff _ source target e, ?_⟩
      intro failed
      rw [ofAdditions_append, add, failed]
      rfl

def rereading : List Addition :=
  [.occurrence ⟨"open", "f.open()", "", .zero, some "f", 0, []⟩,
    .occurrence ⟨"read", "f.read()", "", .zero, some "f", 1, []⟩,
    .occurrence ⟨"close", "f.close()", "", .zero, some "f", 2, []⟩, .chain [0, 1, 1]]

def rereadingOn : List OccurrenceId := [1, 1, 2, 7, 0, 9]

theorem rereading_inserted :
    ((ofAdditions rereading).addChain rereadingOn).1 = .error (.unknownOccurrence 7) ∧
    ((ofAdditions rereading).addChain rereadingOn).2.edges =
      (ofAdditions rereading).edges ∪ neighbours [1, 1, 2] ∧
    (ofAdditions rereading).edges.encard = 2 ∧
    ((ofAdditions rereading).addChain rereadingOn).2.edges.encard = 3 ∧
    (∃ grown, (ofAdditions rereading).addFlow 2 0 = .ok grown ∧
      grown.edges = (ofAdditions rereading).edges ∪ {(2, 0)}) ∧
    (ofAdditions rereading).addFlow 8 9 = .error (.unknownOccurrence 8) ∧
    ofAdditions (rereading ++ [.flow 8 9]) = ofAdditions rereading := by
  rcases insertion_exact rereading with ⟨_, count, chains, steps⟩
  have chained := chains rereadingOn
  have closes : ∃ grown, (ofAdditions rereading).addFlow 2 0 = .ok grown := ⟨_, rfl⟩
  rcases closes with ⟨grown, added⟩
  have refused : (ofAdditions rereading).addFlow 8 9 = .error (.unknownOccurrence 8) :=
    ((steps 8 9).2 _).1.mpr ⟨8, by decide, rfl⟩
  have before : (ofAdditions rereading).flowCount = 2 := by decide +kernel
  have after : ((ofAdditions rereading).addChain rereadingOn).2.flowCount = 3 := by
    decide +kernel
  refine ⟨?_, chained.edges, ?_, ?_, ⟨grown, added, ((steps 2 0).1 grown added).1⟩, refused,
    ((steps 8 9).2 _).2 refused⟩
  · exact (chained.error _).mpr ⟨by decide, 7, by decide, rfl⟩
  · rw [count, before]
    rfl
  · rw [chained.count, after]
    rfl

end CallOrder.Program
