import CallOrder.Search
import Mathlib.Algebra.BigOperators.Group.Finset.Basic
import Mathlib.Algebra.Order.BigOperators.Group.Finset
import Mathlib.Logic.Relation

/-! Graph search: what is visited is what the links lead to from the starts. -/

namespace CallOrder.Search

def Leads (next : Nat → List Nat) : Nat → Nat → Prop :=
  Relation.ReflTransGen fun a b => b ∈ next a

/-- The links of the nodes below `bound` that have not been `seen`. -/
def unseen (next : Nat → List Nat) (bound : Nat) (seen : Std.ExtTreeSet Nat) : Nat :=
  ∑ node ∈ Finset.range bound, if seen.contains node then 0 else (next node).length

variable {next : Nat → List Nat} {bound : Nat}

theorem unseen_insert (node : Nat) (seen : Std.ExtTreeSet Nat)
    (outside : ∀ node, bound ≤ node → next node = []) (fresh : seen.contains node = false) :
    (next node).length + unseen next bound (seen.insert node) = unseen next bound seen := by
  by_cases inside : node < bound
  · have member : node ∈ Finset.range bound := Finset.mem_range.mpr inside
    have others : ∀ other ∈ (Finset.range bound).erase node,
        (if (seen.insert node).contains other then 0 else (next other).length) =
          if seen.contains other then 0 else (next other).length := by
      intro other present
      have differs : node ≠ other := fun same => (Finset.mem_erase.mp present).1 same.symm
      have kept : (seen.insert node).contains other = seen.contains other := by
        rw [Std.ExtTreeSet.contains_insert]
        simp [differs]
      rw [kept]
    rw [unseen, unseen, ← Finset.add_sum_erase _ _ member, ← Finset.add_sum_erase _ _ member,
      Finset.sum_congr rfl others]
    simp [fresh]
  · have nothing : next node = [] := outside node (by omega)
    rw [nothing, List.length_nil, Nat.zero_add]
    apply Finset.sum_congr rfl
    intro other present
    have differs : node ≠ other := by
      have := Finset.mem_range.mp present
      omega
    rw [Std.ExtTreeSet.contains_insert]
    simp [differs]

theorem visit_sound (steps : Nat) (pending : List Nat) (seen : Std.ExtTreeSet Nat) (target : Nat)
    (visited : target ∈ visit next steps pending seen) :
    target ∈ seen ∨ ∃ source ∈ pending, Leads next source target := by
  induction steps generalizing pending seen with
  | zero => exact Or.inl visited
  | succ steps ih =>
      cases pending with
      | nil => exact Or.inl visited
      | cons node pending =>
          rw [visit] at visited
          split at visited
          · rcases ih _ _ visited with known | ⟨source, present, leads⟩
            · exact Or.inl known
            · exact Or.inr ⟨source, List.mem_cons_of_mem _ present, leads⟩
          · rcases ih _ _ visited with known | ⟨source, present, leads⟩
            · rcases Std.ExtTreeSet.mem_insert.mp known with same | known
              · have same : node = target := Std.LawfulEqOrd.eq_of_compare same
                exact Or.inr ⟨node, by simp, same ▸ Relation.ReflTransGen.refl⟩
              · exact Or.inl known
            · rcases List.mem_append.mp present with link | present
              · exact Or.inr ⟨node, by simp, Relation.ReflTransGen.head link leads⟩
              · exact Or.inr ⟨source, List.mem_cons_of_mem _ present, leads⟩

/-- What seen nodes link to has been seen as well or is still pending. -/
def Covered (next : Nat → List Nat) (pending : List Nat) (seen : Std.ExtTreeSet Nat) : Prop :=
  ∀ node ∈ seen, ∀ target ∈ next node, target ∈ seen ∨ target ∈ pending

section Step

variable {node other : Nat} {pending : List Nat} {seen : Std.ExtTreeSet Nat}

theorem mem_skip (known : node ∈ seen) (waits : other ∈ seen ∨ other ∈ node :: pending) :
    other ∈ seen ∨ other ∈ pending := by
  rcases waits with old | waiting
  · exact Or.inl old
  · rcases List.mem_cons.mp waiting with rfl | waiting
    · exact Or.inl known
    · exact Or.inr waiting

theorem mem_take (waits : other ∈ seen ∨ other ∈ node :: pending) :
    other ∈ seen.insert node ∨ other ∈ next node ++ pending := by
  rcases waits with old | waiting
  · exact Or.inl (Std.ExtTreeSet.mem_insert.mpr (Or.inr old))
  · rcases List.mem_cons.mp waiting with rfl | waiting
    · exact Or.inl Std.ExtTreeSet.mem_insert_self
    · exact Or.inr (List.mem_append_right _ waiting)

theorem Covered.skip (covered : Covered next (node :: pending) seen) (known : node ∈ seen) :
    Covered next pending seen :=
  fun source present target link => mem_skip known (covered source present target link)

theorem Covered.take (covered : Covered next (node :: pending) seen) :
    Covered next (next node ++ pending) (seen.insert node) := by
  intro source present target link
  rcases Std.ExtTreeSet.mem_insert.mp present with same | old
  · rw [← Std.LawfulEqOrd.eq_of_compare same] at link
    exact Or.inr (List.mem_append_left _ link)
  · exact mem_take (covered source old target link)

end Step

theorem visit_complete (outside : ∀ node, bound ≤ node → next node = []) (steps : Nat)
    (pending : List Nat) (seen : Std.ExtTreeSet Nat)
    (enough : pending.length + unseen next bound seen ≤ steps)
    (covered : Covered next pending seen) :
    (∀ node, node ∈ seen ∨ node ∈ pending → node ∈ visit next steps pending seen) ∧
      ∀ node ∈ visit next steps pending seen, ∀ target ∈ next node,
        target ∈ visit next steps pending seen := by
  induction steps generalizing pending seen with
  | zero =>
      have empty : pending = [] := List.length_eq_zero_iff.mp (by omega)
      subst empty
      simpa [visit, Covered] using covered
  | succ steps ih =>
      cases pending with
      | nil => simpa [visit, Covered] using covered
      | cons node pending =>
          rw [visit]
          rw [List.length_cons] at enough
          split
          case isTrue known =>
            have known : node ∈ seen := Std.ExtTreeSet.contains_iff_mem.mp known
            have rest := ih pending seen (by omega) (covered.skip known)
            exact ⟨fun other waits => rest.1 other (mem_skip known waits), rest.2⟩
          case isFalse new =>
            -- the links of a new node become pending and stop being unseen, so the sum goes down
            have weight := unseen_insert node seen outside (Bool.eq_false_iff.mpr new)
            have fewer : (next node ++ pending).length + unseen next bound (seen.insert node) ≤
                steps := by
              rw [List.length_append]
              omega
            have rest := ih (next node ++ pending) (seen.insert node) fewer covered.take
            exact ⟨fun other waits => rest.1 other (mem_take waits), rest.2⟩

theorem mem_reach (links : Nat) (starts : List Nat)
    (outside : ∀ node, bound ≤ node → next node = [])
    (enough : ∑ node ∈ Finset.range bound, (next node).length ≤ links) (target : Nat) :
    target ∈ reach next links starts ↔ ∃ start ∈ starts, Leads next start target := by
  have all : unseen next bound ∅ = ∑ node ∈ Finset.range bound, (next node).length := by
    simp [unseen]
  have nothing : Covered next starts ∅ :=
    fun node present => absurd present Std.ExtTreeSet.not_mem_empty
  have complete := visit_complete outside (starts.length + links) starts ∅ (by omega) nothing
  constructor
  · intro visited
    rcases visit_sound _ _ _ _ visited with known | leads
    · exact absurd known Std.ExtTreeSet.not_mem_empty
    · exact leads
  · intro given
    rcases given with ⟨start, present, leads⟩
    induction leads with
    | refl => exact complete.1 start (Or.inr present)
    | tail _ link ih => exact complete.2 _ ih _ link

theorem sum_length_getD {α : Type} (rows : Array (List α)) :
    ∑ i ∈ Finset.range rows.size, (rows.getD i []).length =
      rows.foldl (fun count row => count + row.length) 0 := by
  rcases rows with ⟨rows⟩
  have total : ∑ i ∈ Finset.range rows.length, (rows[i]?.getD []).length =
      rows.foldl (fun count row => count + row.length) 0 := by
    induction rows using List.reverseRecOn with
    | nil => rfl
    | append_singleton rows row ih =>
        have before : ∀ i ∈ Finset.range rows.length,
            ((rows ++ [row])[i]?.getD []).length = (rows[i]?.getD []).length := by
          intro i present
          rw [List.getElem?_append_left (Finset.mem_range.mp present)]
        rw [List.length_append, List.length_singleton, Finset.sum_range_succ,
          Finset.sum_congr rfl before, ih]
        simp
  simpa using total

end CallOrder.Search
