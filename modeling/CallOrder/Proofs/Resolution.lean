import CallOrder.Check.Relation
import CallOrder.Proofs.History
import Mathlib.Data.List.Forall2

/-!
Which occurrences an operation stands for: the index by target agrees with a scan of the arena, and
the queries for operations find the occurrences that match them.
-/

namespace CallOrder

def ArgumentPattern.Admits : ArgumentPattern → Argument → Prop
  | wildcard, _ => True
  | value literal, argument => argument.value = some literal
  | type name, argument => argument.typeName = some name
  | oneOf literals, argument => ∃ literal ∈ literals, argument.value = some literal

theorem ArgumentPattern.fits_iff (condition : ArgumentPattern) (argument : Argument) :
    condition.fits argument = true ↔ condition.Admits argument := by
  cases condition with
  | wildcard => simp [fits, Admits]
  | value literal => simp [fits, Admits]
  | type name => simp [fits, Admits]
  | oneOf literals => cases known : argument.value <;> simp [fits, Admits, known]

theorem fitAll_iff (conditions : List ArgumentPattern) (arguments : List Argument) :
    fitAll conditions arguments = true ↔
      List.Forall₂ ArgumentPattern.Admits conditions arguments := by
  induction conditions generalizing arguments with
  | nil => cases arguments <;> simp [fitAll]
  | cons condition conditions ih =>
      cases arguments with
      | nil => simp [fitAll]
      | cons argument arguments => simp [fitAll, ih, condition.fits_iff]

/-- The call is one of the target, with one argument for each condition of the signature if there is
a signature, each as its condition asks. -/
def Occurrence.Matches (occurrence : Occurrence) (op : Operation) : Prop :=
  occurrence.target = op.target ∧ ∀ conditions, op.signature = some conditions →
    List.Forall₂ ArgumentPattern.Admits conditions occurrence.arguments

theorem Occurrence.fits_iff (occurrence : Occurrence) (op : Operation) :
    occurrence.fits op = true ↔ occurrence.Matches op := by
  rw [fits, Bool.and_eq_true, beq_iff_eq, Matches, eq_comm]
  cases op.signature with
  | none => simp
  | some conditions => simp [fitAll_iff]

namespace Arena

variable {a : Arena}

/-- The index holds for each target the numbers of its occurrences, in increasing order. -/
def Indexed (a : Arena) : Prop := ∀ target, (a.byTarget target).toList =
  (List.range a.size).filter fun id => (a.get? id).any (·.target = target)

theorem byTarget_push (a : Arena) (occurrence : Occurrence) (target : String) :
    (a.push occurrence).byTarget target = if occurrence.target = target
      then (a.byTarget target).push a.size else a.byTarget target := by
  simp only [byTarget, push, Std.ExtTreeMap.getD_alter]
  by_cases same : occurrence.target = target
  · subst same
    simp [Std.ExtTreeMap.getD_eq_getD_getElem?, nextId]
  · have differs : compare occurrence.target target ≠ .eq :=
      fun equal => same (Std.LawfulEqOrd.eq_of_compare equal)
    rw [if_neg differs, if_neg same]

theorem empty_indexed : empty.Indexed := by
  intro target
  simp [empty, byTarget, size]

theorem get?_push (a : Arena) (occurrence : Occurrence) (id : OccurrenceId) :
    (a.push occurrence).get? id = if id = a.size then some occurrence else a.get? id :=
  Array.getElem?_push

theorem size_push (a : Arena) (occurrence : Occurrence) :
    (a.push occurrence).size = a.size + 1 := Array.size_push occurrence

theorem lt_size_of_get? {id : OccurrenceId} {occurrence : Occurrence}
    (found : a.get? id = some occurrence) : id < a.size :=
  (Array.getElem?_eq_some_iff.mp found).1

theorem push_indexed (indexed : a.Indexed) (occurrence : Occurrence) :
    (a.push occurrence).Indexed := by
  intro target
  have old : (List.range a.size).filter
      (fun id => ((a.push occurrence).get? id).any (·.target = target)) =
      (List.range a.size).filter fun id => (a.get? id).any (·.target = target) := by
    apply List.filter_congr
    intro id present
    have before : id ≠ a.size := Nat.ne_of_lt (List.mem_range.mp present)
    rw [get?_push, if_neg before]
  rw [byTarget_push, size_push, List.range_succ, List.filter_append, old, ← indexed target,
    List.filter_singleton, get?_push, if_pos rfl]
  by_cases same : occurrence.target = target
  · simp [same]
  · simp [same]

def Matching (a : Arena) (ops : List Operation) (id : OccurrenceId) : Prop :=
  ∃ op ∈ ops, ∃ occurrence, a.get? id = some occurrence ∧ occurrence.Matches op

end Arena

namespace Program

variable {p : Program}

theorem mem_resolveFitting (indexed : p.arena.Indexed) (op : Operation) (id : OccurrenceId) :
    id ∈ p.resolveFitting op ↔
      ∃ occurrence, p.arena.get? id = some occurrence ∧ occurrence.Matches op := by
  rw [resolveFitting, Std.ExtTreeSet.mem_ofList, List.contains_iff_mem, List.mem_filter,
    indexed op.target, List.mem_filter, List.mem_range]
  cases found : p.arena.get? id with
  | none => simp [fits, found]
  | some occurrence =>
      have inside : id < p.arena.size := Arena.lt_size_of_get? found
      have target : occurrence.Matches op → occurrence.target = op.target := And.left
      simpa [fits, found, occurrence.fits_iff, inside] using target

end Program

theorem gather_ok (answer : Operation → OccurrenceSet) (ops : List Operation)
    (found : OccurrenceSet) : ∃ all, gather (fun op => .ok (answer op)) ops found = .ok all ∧
      ∀ id, id ∈ all ↔ id ∈ found ∨ ∃ op ∈ ops, id ∈ answer op := by
  induction ops generalizing found with
  | nil => exact ⟨found, rfl, by simp⟩
  | cons op ops ih =>
      obtain ⟨all, gathered, members⟩ := ih (found.insertMany (answer op).toList)
      refine ⟨all, gathered, fun id => ?_⟩
      rw [members, Std.ExtTreeSet.mem_insertMany_list, List.contains_iff_mem,
        Std.ExtTreeSet.mem_toList]
      simp [or_assoc]

theorem Program.ofAdditions_indexed (additions : List Program.Addition) :
    (Program.ofAdditions additions).arena.Indexed :=
  arena_induction Arena.empty_indexed (fun _ o indexed => Arena.push_indexed indexed o) additions

theorem Program.fitting_ok {p : Program} (indexed : p.arena.Indexed) (ops : List Operation) :
    ∃ found, p.queries.fitting ops = .ok found ∧ ∀ id, id ∈ found ↔ p.arena.Matching ops id := by
  obtain ⟨found, gathered, members⟩ := gather_ok p.resolveFitting ops ∅
  refine ⟨found, gathered, fun id => ?_⟩
  rw [members]
  simp only [mem_resolveFitting indexed, Std.ExtTreeSet.not_mem_empty, false_or]
  rfl

end CallOrder
