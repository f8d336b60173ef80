import Mathlib.Data.List.Dedup

/-! Lists that grow at their end, where two lists are cut alike, and how many different members a
list has. -/

namespace CallOrder

variable {α : Type} {list before after : List α} {last member : α}

theorem concat_eq_split_iff : list ++ [last] = before ++ member :: after ↔
    (list = before ∧ last = member ∧ after = []) ∨
      ∃ more, after = more ++ [last] ∧ list = before ++ member :: more := by
  constructor
  · intro split
    rcases List.eq_nil_or_concat after with rfl | ⟨more, final, rfl⟩
    · obtain ⟨rfl, same⟩ := List.append_inj' split rfl
      exact Or.inl ⟨rfl, List.singleton_inj.mp same, rfl⟩
    · rw [List.concat_eq_append, ← List.cons_append, ← List.append_assoc] at split
      obtain ⟨rfl, same⟩ := List.append_inj' split rfl
      rw [List.singleton_inj.mp same]
      exact Or.inr ⟨more, List.concat_eq_append, rfl⟩
  · rintro (⟨rfl, rfl, rfl⟩ | ⟨more, rfl, rfl⟩)
    · rfl
    · simp

/-- Two lists are cut in two at the same place where it is the first one that is not `inside`. -/
theorem append_inj_of_boundary {inside : α → Prop} {s t u v : List α}
    (here : ∀ a ∈ s, inside a) (there : ∀ a ∈ t, inside a) (out : ∀ a ∈ u.head?, ¬ inside a)
    (outToo : ∀ a ∈ v.head?, ¬ inside a) (same : s ++ u = t ++ v) : s = t ∧ u = v := by
  induction s generalizing t with
  | nil =>
      cases t with
      | nil => exact ⟨rfl, same⟩
      | cons b t =>
          rw [List.nil_append] at same
          exact absurd (there b List.mem_cons_self) (out b (by simp [same]))
  | cons a s ih =>
      cases t with
      | nil =>
          rw [List.nil_append] at same
          exact absurd (here a List.mem_cons_self) (outToo a (by simp [← same]))
      | cons b t =>
          rw [List.cons_append, List.cons_append, List.cons.injEq] at same
          obtain ⟨rfl, rest⟩ := same
          obtain ⟨rfl, same⟩ := ih (fun c inS => here c (List.mem_cons_of_mem a inS))
            (fun c inT => there c (List.mem_cons_of_mem a inT)) rest
          exact ⟨rfl, same⟩

theorem length_eq_length_dedup [DecidableEq α] {others : List α} (distinct : list.Nodup)
    (same : ∀ member, member ∈ list ↔ member ∈ others) : list.length = others.dedup.length := by
  apply List.Perm.length_eq
  rw [List.perm_ext_iff_of_nodup distinct (List.nodup_dedup others)]
  intro member
  rw [same, List.mem_dedup]

end CallOrder
