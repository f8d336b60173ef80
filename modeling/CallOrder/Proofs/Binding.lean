import CallOrder.Context
import CallOrder.Proofs.Text.ByteOrder
import Mathlib.Data.List.Induction

/-! Tables of operations, and the bindings that hold in a context. -/

namespace CallOrder

theorem mem_of_getElem?_eq_some {table : OperationTable} {token : Token} {op : Operation}
    (bound : table[token]? = some op) : token ∈ table := by
  rw [Std.ExtTreeMap.mem_iff_isSome_getElem?, bound, Option.isSome_some]

theorem getElem?_insertMany_toList (table more : OperationTable) (token : Token) :
    (table.insertMany more.toList)[token]? = more[token]?.or table[token]? := by
  cases bound : more[token]? with
  | none =>
      rw [Option.none_or, Std.ExtTreeMap.getElem?_insertMany_list_of_contains_eq_false]
      rw [Std.ExtTreeMap.map_fst_toList_eq_keys, ← Bool.not_eq_true, List.contains_iff_mem,
        Std.ExtTreeMap.mem_keys, Std.ExtTreeMap.mem_iff_isSome_getElem?, bound]
      exact Bool.false_ne_true
  | some op =>
      have listed := Std.ExtTreeMap.mem_toList_iff_getElem?_eq_some.mpr bound
      rw [Option.some_or]
      exact Std.ExtTreeMap.getElem?_insertMany_list_of_mem Std.ReflCmp.compare_self
        Std.ExtTreeMap.distinct_keys_toList listed

/-- The last of the instances in a list that bind the token, where the list goes by name. -/
structure Instance.IsLast (entries : List (String × Instance)) (token : Token)
    (entry : String × Instance) : Prop where
  mem : entry ∈ entries
  binds : token ∈ entry.2.operations
  greatest : ∀ other ∈ entries, token ∈ other.2.operations → other.1 ≤ entry.1

namespace Instance

variable {entries : List (String × Instance)} {last entry : String × Instance} {token : Token}

theorem isLast_append_of_not_mem (unbound : token ∉ last.2.operations) :
    IsLast (entries ++ [last]) token entry ↔ IsLast entries token entry := by
  constructor
  · intro isLast
    refine ⟨?_, isLast.binds, fun other among =>
      isLast.greatest other (List.mem_append_left _ among)⟩
    rcases List.mem_append.mp isLast.mem with early | late
    · exact early
    · rw [← List.mem_singleton.mp late] at unbound
      exact absurd isLast.binds unbound
  · intro isLast
    refine ⟨List.mem_append_left _ isLast.mem, isLast.binds, ?_⟩
    intro other among binds
    rcases List.mem_append.mp among with early | late
    · exact isLast.greatest other early binds
    · rw [← List.mem_singleton.mp late] at unbound
      exact absurd binds unbound

theorem isLast_append_of_mem (below : ∀ entry ∈ entries, entry.1 < last.1)
    (bound : token ∈ last.2.operations) :
    IsLast (entries ++ [last]) token entry ↔ entry = last := by
  have final : last ∈ entries ++ [last] := List.mem_append_right _ (List.mem_singleton_self last)
  constructor
  · intro isLast
    rcases List.mem_append.mp isLast.mem with early | late
    · exact absurd (isLast.greatest last final bound) (not_le_of_gt (below entry early))
    · exact List.mem_singleton.mp late
  · intro same
    rcases same with rfl
    refine ⟨final, bound, ?_⟩
    intro other among _
    rcases List.mem_append.mp among with early | late
    · exact (below other early).le
    · rw [List.mem_singleton.mp late]

end Instance

namespace Context

/-- The greatest parameter, by bytes, that binds the token binds it to this operation. -/
def Binds (c : Context) (token : Token) (op : Operation) : Prop :=
  ∃ name i, c.parameters[name]? = some i ∧ i.operations[token]? = some op ∧
    ∀ other j, c.parameters[other]? = some j → token ∈ j.operations →
      Text.bytes other ≤ Text.bytes name

theorem foldl_insertMany_eq_some_iff (entries : List (String × Instance))
    (increasing : entries.Pairwise fun first second => first.1 < second.1) (token : Token)
    (op : Operation) :
    (entries.foldl (fun table entry => table.insertMany entry.2.operations.toList)
      (∅ : OperationTable))[token]? = some op ↔
    ∃ entry, Instance.IsLast entries token entry ∧ entry.2.operations[token]? = some op := by
  -- tables are merged from the front, so the induction takes the last one off
  induction entries using List.reverseRecOn with
  | nil =>
      constructor
      · intro bound
        simp at bound
      · intro given
        rcases given with ⟨entry, isLast, _⟩
        cases isLast.mem
  | append_singleton entries last ih =>
      obtain ⟨ordered, _, later⟩ := List.pairwise_append.mp increasing
      have below : ∀ entry ∈ entries, entry.1 < last.1 :=
        fun entry present => later entry present last (List.mem_singleton_self last)
      rw [List.foldl_append, List.foldl_cons, List.foldl_nil, getElem?_insertMany_toList]
      by_cases bound : token ∈ last.2.operations
      · have defined := Std.ExtTreeMap.isSome_getElem?_iff_mem.mpr bound
        obtain ⟨own, binds⟩ := Option.isSome_iff_exists.mp defined
        simp only [Instance.isLast_append_of_mem below bound, exists_eq_left, binds, Option.some_or]
      · rw [Std.ExtTreeMap.getElem?_eq_none bound, Option.none_or, ih ordered]
        simp only [Instance.isLast_append_of_not_mem bound]

theorem operations_eq_some_iff (c : Context) (token : Token) (op : Operation) :
    c.operations[token]? = some op ↔ c.Binds token op := by
  have increasing : c.parameters.toList.Pairwise fun first second => first.1 < second.1 :=
    c.parameters.ordered_keys_toList.imp fun less => compare_lt_iff_lt.mp less
  rw [operations, foldl_insertMany_eq_some_iff _ increasing]
  constructor
  · intro given
    rcases given with ⟨⟨name, i⟩, isLast, binds⟩
    refine ⟨name, i, Std.ExtTreeMap.mem_toList_iff_getElem?_eq_some.mp isLast.mem, binds, ?_⟩
    intro other j present bindsToo
    have among := Std.ExtTreeMap.mem_toList_iff_getElem?_eq_some.mpr present
    exact Text.le_iff_bytes_le.mp (isLast.greatest (other, j) among bindsToo)
  · intro given
    rcases given with ⟨name, i, present, binds, greatest⟩
    have bound : token ∈ i.operations := mem_of_getElem?_eq_some binds
    have listed := Std.ExtTreeMap.mem_toList_iff_getElem?_eq_some.mpr present
    refine ⟨(name, i), ⟨listed, bound, ?_⟩, binds⟩
    intro other among bindsToo
    have presentToo := Std.ExtTreeMap.mem_toList_iff_getElem?_eq_some.mp among
    exact Text.le_iff_bytes_le.mpr (greatest other.1 other.2 presentToo bindsToo)

end Context

end CallOrder
