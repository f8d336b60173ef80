import CallOrder.Program
import CallOrder.Proofs.Lists
import CallOrder.Proofs.Result
import CallOrder.Proofs.Search

/-!
The history of a recorded program: what has been added to it, one addition after the other. Its flow
is what the additions say, also where some of them failed.
-/

namespace CallOrder.Program

inductive Addition where
  | occurrence (occurrence : Occurrence)
  | flow (source target : OccurrenceId)
  | chain (ids : List OccurrenceId)
  deriving DecidableEq, Repr

def add (p : Program) : Addition → Program
  | .occurrence occurrence => p.addOccurrence occurrence
  | .flow source target => (p.addFlow source target).toOption.getD p
  | .chain ids => (p.addChain ids).2

def ofAdditions (additions : List Addition) : Program := additions.foldl add .empty

namespace Addition

def occurrence? : Addition → Option Occurrence
  | occurrence o => some o
  | flow _ _ | chain _ => none

/-- What is recorded of the flow where `known` occurrences have been recorded before. A chain is
recorded up to its first number that is not known. -/
def Records (known : Nat) (source target : OccurrenceId) : Addition → Prop
  | occurrence _ => False
  | flow a b => (a < known ∧ b < known) ∧ source = a ∧ target = b
  | chain ids => [source, target] <:+: ids.takeWhile (· < known)

end Addition

def occurrencesOf (additions : List Addition) : List Occurrence :=
  additions.filterMap Addition.occurrence?

theorem occurrencesOf_append (before after : List Addition) :
    occurrencesOf (before ++ after) = occurrencesOf before ++ occurrencesOf after :=
  List.filterMap_append

def Recorded (additions : List Addition) (source target : OccurrenceId) : Prop :=
  ∃ before addition after, additions = before ++ addition :: after ∧
    addition.Records (occurrencesOf before).length source target

/-- One or more steps of the recorded flow lead from `source` to `target`. -/
def FlowsTo (additions : List Addition) : OccurrenceId → OccurrenceId → Prop :=
  Relation.TransGen (Recorded additions)

/-- `q` is `p` with more flow. -/
structure Widens (p q : Program) (more : OccurrenceId → OccurrenceId → Prop) : Prop where
  arena : q.arena = p.arena
  size : q.flow.size = p.flow.size
  successors : ∀ source target, target ∈ q.successors source ↔
    target ∈ p.successors source ∨ more source target

variable {p q r : Program} {additions : List Addition} {source target : OccurrenceId}

theorem widens_self {more : OccurrenceId → OccurrenceId → Prop}
    (nothing : ∀ source target, ¬ more source target) : p.Widens p more where
  arena := rfl
  size := rfl
  successors source target := by simp [nothing source target]

theorem Widens.trans {more others : OccurrenceId → OccurrenceId → Prop} (first : p.Widens q more)
    (second : q.Widens r others) :
    p.Widens r fun source target => more source target ∨ others source target where
  arena := second.arena.trans first.arena
  size := second.size.trans first.size
  successors source target := by rw [second.successors, first.successors, or_assoc]

theorem Widens.congr {more same : OccurrenceId → OccurrenceId → Prop} (widens : p.Widens q more)
    (equivalent : ∀ source target, more source target ↔ same source target) : p.Widens q same where
  arena := widens.arena
  size := widens.size
  successors source target := by rw [widens.successors, equivalent]

theorem successors_of_size_le (beyond : p.flow.size ≤ source) : p.successors source = [] := by
  rw [successors, Array.getD_eq_getD_getElem?, Array.getElem?_eq_none beyond, Option.getD_none]

theorem successors_modify (p : Program) (known : source < p.flow.size) (a : OccurrenceId) :
    ({ p with flow := p.flow.modify source (· ++ [target]) } : Program).successors a =
      if a = source then p.successors a ++ [target] else p.successors a := by
  simp only [successors, Array.getD_eq_getD_getElem?, Array.getElem?_modify]
  by_cases here : source = a
  · subst here
    simp [known]
  · simp [here, Ne.symm here]

theorem mem_successors_modify (p : Program) (known : source < p.flow.size) (a b : OccurrenceId) :
    b ∈ ({ p with flow := p.flow.modify source (· ++ [target]) } : Program).successors a ↔
      b ∈ p.successors a ∨ a = source ∧ b = target := by
  rw [successors_modify p known]
  by_cases here : a = source
  · simp [here]
  · simp [here]

theorem check_ok (known : source < p.flow.size) : p.check source = .ok () := if_pos known

theorem check_error (unknown : ¬ source < p.flow.size) :
    p.check source = .error (.unknownOccurrence source) := if_neg unknown

theorem addFlow_error (unknown : ¬ (source < p.flow.size ∧ target < p.flow.size)) :
    ∃ id, [source, target].find? (fun id => p.flow.size ≤ id) = some id ∧
      p.addFlow source target = .error (.unknownOccurrence id) := by
  by_cases known : source < p.flow.size
  · have beyond : ¬ target < p.flow.size := fun inside => unknown ⟨known, inside⟩
    refine ⟨target, by simp [known, Nat.le_of_not_lt beyond], ?_⟩
    rw [addFlow, check_ok known, check_error beyond]
    rfl
  · refine ⟨source, by simp [Nat.le_of_not_lt known], ?_⟩
    rw [addFlow, check_error known]
    rfl

theorem addFlow_cases (added : p.addFlow source target = .ok q) :
    (source < p.flow.size ∧ target < p.flow.size) ∧
      (target ∈ p.successors source ∧ q = p ∨ target ∉ p.successors source ∧
        q = { p with flow := p.flow.modify source (· ++ [target]) }) := by
  by_cases known : source < p.flow.size ∧ target < p.flow.size
  · rw [addFlow, check_ok known.1, check_ok known.2, ok_bind, ok_bind] at added
    refine ⟨known, ?_⟩
    split at added
    case isTrue old => exact Or.inl ⟨List.contains_iff_mem.mp old, (Except.ok.inj added).symm⟩
    case isFalse new =>
      exact Or.inr ⟨fun old => new (List.contains_iff_mem.mpr old), (Except.ok.inj added).symm⟩
  · rcases addFlow_error known with ⟨id, _, failed⟩
    rw [failed] at added
    cases added

theorem widens_of_addFlow (added : p.addFlow source target = .ok q) :
    p.Widens q fun a b => a = source ∧ b = target := by
  rcases addFlow_cases added with ⟨known, ⟨old, rfl⟩ | ⟨_, rfl⟩⟩
  · refine ⟨rfl, rfl, ?_⟩
    intro a b
    constructor
    · exact Or.inl
    · rintro (present | ⟨rfl, rfl⟩)
      · exact present
      · exact old
  · exact ⟨rfl, Array.size_modify, mem_successors_modify p known.1⟩

theorem addFlow_ok (known : source < p.flow.size ∧ target < p.flow.size) :
    ∃ q, p.addFlow source target = .ok q := by
  rw [addFlow, check_ok known.1, check_ok known.2, ok_bind, ok_bind]
  split
  · exact ⟨_, rfl⟩
  · exact ⟨_, rfl⟩

theorem unknown_of_addFlow {e : QueryError} (failed : p.addFlow source target = .error e) :
    ¬ (source < p.flow.size ∧ target < p.flow.size) := by
  intro known
  rcases addFlow_ok known with ⟨q, added⟩
  rw [added] at failed
  cases failed

theorem addFlow_error_iff (p : Program) (source target : OccurrenceId) (e : QueryError) :
    p.addFlow source target = .error e ↔
      ∃ id, [source, target].find? (fun id => p.flow.size ≤ id) = some id ∧
        e = .unknownOccurrence id := by
  by_cases known : source < p.flow.size ∧ target < p.flow.size
  · rcases addFlow_ok known with ⟨q, added⟩
    simp [added, known]
  · rcases addFlow_error known with ⟨id, first, failed⟩
    simp [failed, first, eq_comm]

theorem pair_infix_cons {a b source : OccurrenceId} {ids : List OccurrenceId} :
    [a, b] <:+: source :: target :: ids ↔
      (a = source ∧ b = target) ∨ [a, b] <:+: target :: ids := by
  rw [List.infix_cons_iff, List.cons_prefix_cons, List.cons_prefix_cons]
  simp

theorem not_pair_infix {a b : OccurrenceId} {ids : List OccurrenceId} (short : ids.length ≤ 1) :
    ¬ [a, b] <:+: ids := by
  intro inside
  have long := inside.length_le
  simp only [List.length_cons, List.length_nil] at long
  omega

/-- A chain is recorded as far as its numbers are known, and no further. -/
theorem addChain_widens (p : Program) (ids : List OccurrenceId) :
    p.Widens (p.addChain ids).2 fun a b => [a, b] <:+: ids.takeWhile (· < p.flow.size) := by
  fun_induction addChain p ids with
  | case1 p source target rest q added ih =>
      have known := (addFlow_cases added).1
      have widens := widens_of_addFlow added
      rw [widens.size] at ih
      refine (widens.trans ih).congr fun a b => ?_
      have front : (source :: target :: rest).takeWhile (· < p.flow.size) =
          source :: target :: rest.takeWhile (· < p.flow.size) := by simp [known]
      have back : (target :: rest).takeWhile (· < p.flow.size) =
          target :: rest.takeWhile (· < p.flow.size) := by simp [known]
      rw [front, back, pair_infix_cons]
  | case2 p source target rest e failed =>
      -- one of the first two is unknown, so there is no pair of known neighbours
      refine widens_self fun a b => not_pair_infix ?_
      by_cases known : source < p.flow.size
      · have beyond : ¬ target < p.flow.size :=
          fun inside => unknown_of_addFlow failed ⟨known, inside⟩
        simp [known, beyond]
      · simp [known]
  | case3 ids p short =>
      refine widens_self fun a b => not_pair_infix ?_
      match ids with
      | [] => simp
      | [only] => exact (List.takeWhile_sublist _).length_le
      | source :: target :: rest => exact (short source target rest rfl).elim

theorem add_widens (p : Program) (addition : Addition) (flowOnly : addition.occurrence? = none) :
    p.Widens (p.add addition) fun a b => addition.Records p.flow.size a b := by
  cases addition with
  | occurrence o => cases flowOnly
  | flow source target =>
      rw [add]
      by_cases known : source < p.flow.size ∧ target < p.flow.size
      · rcases addFlow_ok known with ⟨q, added⟩
        rw [added]
        exact (widens_of_addFlow added).congr fun a b => (and_iff_right known).symm
      · obtain ⟨id, _, failed⟩ := addFlow_error known
        rw [failed]
        exact widens_self fun a b recorded => known recorded.1
  | chain ids => exact p.addChain_widens ids

theorem successors_addOccurrence (p : Program) (o : Occurrence) (source : OccurrenceId) :
    (p.addOccurrence o).successors source = p.successors source := by
  simp only [successors, addOccurrence, Array.getD_eq_getD_getElem?, Array.getElem?_push]
  by_cases last : source = p.flow.size
  · simp [last]
  · simp [last]

def Sized (p : Program) : Prop := p.flow.size = p.arena.size

theorem add_sized (sized : p.Sized) (addition : Addition) : (p.add addition).Sized := by
  cases flowOnly : addition.occurrence? with
  | none =>
      have widens := p.add_widens addition flowOnly
      rw [Sized, widens.size, widens.arena, sized]
  | some o =>
      cases addition with
      | occurrence o => simpa [add, addOccurrence, Sized, Arena.size, Arena.push] using sized
      | flow source target => cases flowOnly
      | chain ids => cases flowOnly

theorem arena_add (p : Program) (addition : Addition) :
    (p.add addition).arena = addition.occurrence?.elim p.arena p.arena.push := by
  cases flowOnly : addition.occurrence? with
  | none => exact (p.add_widens addition flowOnly).arena
  | some o =>
      cases addition with
      | occurrence o => cases flowOnly; rfl
      | flow source target => cases flowOnly
      | chain ids => cases flowOnly

theorem mem_successors_add (sized : p.Sized) (addition : Addition) :
    target ∈ (p.add addition).successors source ↔
      target ∈ p.successors source ∨ addition.Records p.arena.size source target := by
  cases addition with
  | occurrence o => simp [add, successors_addOccurrence, Addition.Records]
  | flow a b => exact sized ▸ (p.add_widens (.flow a b) rfl).successors source target
  | chain ids => exact sized ▸ (p.add_widens (.chain ids) rfl).successors source target

theorem ofAdditions_append (additions : List Addition) (last : Addition) :
    ofAdditions (additions ++ [last]) = (ofAdditions additions).add last := by
  rw [ofAdditions, List.foldl_append]
  rfl

/-- What holds of an arena without occurrences and is kept by every further one holds of the arenas
of all programs. -/
theorem arena_induction {Holds : Arena → Prop} (empty : Holds .empty)
    (push : ∀ a o, Holds a → Holds (a.push o)) (additions : List Addition) :
    Holds (ofAdditions additions).arena := by
  induction additions using List.reverseRecOn with
  | nil => exact empty
  | append_singleton additions last ih =>
      rw [ofAdditions_append, arena_add]
      cases last.occurrence? with
      | none => exact ih
      | some o => exact push _ o ih

theorem ofAdditions_sized (additions : List Addition) : (ofAdditions additions).Sized := by
  induction additions using List.reverseRecOn with
  | nil => rfl
  | append_singleton additions last ih =>
      rw [ofAdditions_append]
      exact add_sized ih last

theorem occurrences_ofAdditions (additions : List Addition) :
    (ofAdditions additions).arena.occurrences.toList = occurrencesOf additions := by
  induction additions using List.reverseRecOn with
  | nil => rfl
  | append_singleton additions last ih =>
      rw [ofAdditions_append, arena_add, occurrencesOf_append, ← ih]
      cases last <;> simp [occurrencesOf, Addition.occurrence?, Arena.push]

theorem get?_ofAdditions (additions : List Addition) (id : OccurrenceId) :
    (ofAdditions additions).arena.get? id = (occurrencesOf additions)[id]? := by
  rw [← occurrences_ofAdditions, Array.getElem?_toList, Arena.get?]

theorem size_ofAdditions (additions : List Addition) :
    (ofAdditions additions).arena.size = (occurrencesOf additions).length := by
  rw [← occurrences_ofAdditions, Array.length_toList, Arena.size]

theorem size_flow_ofAdditions (additions : List Addition) :
    (ofAdditions additions).flow.size = (occurrencesOf additions).length :=
  (ofAdditions_sized additions).trans (size_ofAdditions additions)

theorem recorded_append (additions : List Addition) (last : Addition) :
    Recorded (additions ++ [last]) source target ↔ Recorded additions source target ∨
      last.Records (occurrencesOf additions).length source target := by
  constructor
  · rintro ⟨before, addition, after, split, records⟩
    rcases concat_eq_split_iff.mp split with ⟨rfl, rfl, _⟩ | ⟨more, _, earlier⟩
    · exact Or.inr records
    · exact Or.inl ⟨before, addition, more, earlier, records⟩
  · rintro (⟨before, addition, after, rfl, records⟩ | records)
    · exact ⟨before, addition, after ++ [last], by simp, records⟩
    · exact ⟨additions, last, [], rfl, records⟩

theorem mem_successors_ofAdditions (additions : List Addition) :
    target ∈ (ofAdditions additions).successors source ↔ Recorded additions source target := by
  induction additions using List.reverseRecOn with
  | nil => simp [ofAdditions, empty, successors, Recorded]
  | append_singleton additions last ih =>
      rw [ofAdditions_append, mem_successors_add (ofAdditions_sized additions), ih,
        size_ofAdditions, recorded_append]

theorem mem_reach_successors (p : Program) (starts : List OccurrenceId) (target : OccurrenceId) :
    target ∈ Search.reach p.successors p.flowCount starts ↔
      ∃ start ∈ starts, Search.Leads p.successors start target := by
  have outside : ∀ node, p.flow.size ≤ node → p.successors node = [] :=
    fun _ beyond => successors_of_size_le beyond
  exact Search.mem_reach p.flowCount starts outside (Search.sum_length_getD p.flow).le target

theorem reachable_ok (knownSource : source < p.flow.size) (knownTarget : target < p.flow.size) :
    ∃ answer, p.reachable source target = .ok answer ∧
      (answer = true ↔ Relation.TransGen (fun a b => b ∈ p.successors a) source target) := by
  refine ⟨_, by rw [reachable, check_ok knownSource, check_ok knownTarget]; rfl, ?_⟩
  rw [Std.ExtTreeSet.contains_iff_mem, mem_reach_successors, Relation.TransGen.head'_iff]
  rfl

theorem reachable_ofAdditions (knownSource : source < (occurrencesOf additions).length)
    (knownTarget : target < (occurrencesOf additions).length) :
    ∃ answer, (ofAdditions additions).reachable source target = .ok answer ∧
      (answer = true ↔ FlowsTo additions source target) := by
  have flow : (fun a b => b ∈ (ofAdditions additions).successors a) = Recorded additions :=
    funext₂ fun a b => propext (mem_successors_ofAdditions additions)
  rw [← size_flow_ofAdditions] at knownSource knownTarget
  rw [FlowsTo, ← flow]
  exact reachable_ok knownSource knownTarget

end CallOrder.Program
