import CallOrder.Proofs.Resolution

/-!
The index from targets to occurrences. Main statement: after any history it says what a scan of all
occurrences says, so that every number in it can be looked up.
-/

namespace CallOrder

namespace Arena

variable {a : Arena} {target : String}

/-- The index has an entry for the target of every occurrence, and no other entries. -/
def Keyed (a : Arena) : Prop :=
  ∀ target, target ∈ a.index ↔ target ∈ a.occurrences.toList.map (·.target)

theorem empty_keyed : empty.Keyed := by
  intro target
  simp [empty]

theorem push_keyed (keyed : a.Keyed) (o : Occurrence) : (a.push o).Keyed := by
  intro target
  simp only [push, Std.ExtTreeMap.mem_alter, Array.toList_push, List.map_append, List.mem_append,
    List.map_singleton, List.mem_singleton, ← keyed target]
  by_cases same : o.target = target
  · simp [same]
  · simp [same, Ne.symm same]

theorem size_index (keyed : a.Keyed) :
    a.index.size = (a.occurrences.toList.map (·.target)).dedup.length := by
  rw [← Std.ExtTreeMap.length_keys]
  apply length_eq_length_dedup Std.ExtTreeMap.nodup_keys
  intro target
  rw [Std.ExtTreeMap.mem_keys, keyed target]

theorem size_bases (a : Arena) :
    a.bases.size = (a.occurrences.toList.filterMap (·.base)).dedup.length := by
  have distinct : a.bases.toList.Nodup := by
    refine a.bases.distinct_toList.imp ?_
    intro first second differs same
    exact differs (same ▸ Std.ReflCmp.compare_self)
  rw [← Std.ExtTreeSet.length_toList]
  apply length_eq_length_dedup distinct
  intro base
  rw [Std.ExtTreeSet.mem_toList, bases, Std.ExtTreeSet.mem_ofList, List.contains_iff_mem]

theorem byTarget_increasing (indexed : a.Indexed) (target : String) :
    (a.byTarget target).toList.Pairwise (· < ·) := by
  rw [indexed target]
  exact List.pairwise_lt_range.filter _

theorem mem_byTarget (indexed : a.Indexed) (id : OccurrenceId) :
    id ∈ a.byTarget target ↔ ∃ o, a.get? id = some o ∧ o.target = target := by
  rw [← Array.mem_toList_iff, indexed target, List.mem_filter, List.mem_range]
  cases found : a.get? id with
  | none => simp
  | some o => simp [lt_size_of_get? found]

end Arena

namespace Program

variable {p : Program}

def occurrence (p : Program) (id : OccurrenceId) : Except QueryError Occurrence :=
  (p.arena.get? id).elim (.error (.unknownOccurrence id)) .ok

def takeFitting (p : Program) (op : Operation) (found : OccurrenceSet) (id : OccurrenceId) :
    Except QueryError OccurrenceSet := do
  let o ← p.occurrence id
  return if o.fits op then found.insert id else found

/-- The occurrences that fit an operation, where every number in the index is looked up. -/
def lookUpFitting (p : Program) (op : Operation) : Except QueryError OccurrenceSet :=
  (p.arena.byTarget op.target).toList.foldlM (p.takeFitting op) ∅

theorem takeFitting_ok {id : OccurrenceId} {o : Occurrence} (known : p.arena.get? id = some o)
    (op : Operation) (found : OccurrenceSet) :
    p.takeFitting op found id = .ok (if o.fits op then found.insert id else found) := by
  rw [takeFitting, occurrence, known]
  rfl

theorem foldlM_takeFitting_ok (op : Operation) (ids : List OccurrenceId)
    (known : ∀ id ∈ ids, ∃ o, p.arena.get? id = some o) (found : OccurrenceSet) :
    ∃ all, ids.foldlM (p.takeFitting op) found = .ok all ∧
      ∀ id, id ∈ all ↔ id ∈ found ∨ id ∈ ids ∧ p.fits op id = true := by
  induction ids generalizing found with
  | nil => exact ⟨found, rfl, by simp⟩
  | cons first ids ih =>
      obtain ⟨⟨o, here⟩, later⟩ := List.forall_mem_cons.mp known
      obtain ⟨all, looked, members⟩ := ih later (if o.fits op then found.insert first else found)
      refine ⟨all, ?_, fun id => ?_⟩
      · rw [List.foldlM_cons, takeFitting_ok here, ok_bind, looked]
      · have fitting : p.fits op first = o.fits op := by rw [fits, here, Option.any_some]
        rw [members]
        split
        case isTrue fits =>
          rw [Std.ExtTreeSet.mem_insert, Std.LawfulEqOrd.compare_eq_iff_eq, List.mem_cons]
          grind
        case isFalse misfit =>
          rw [List.mem_cons]
          grind

theorem lookUpFitting_eq (indexed : p.arena.Indexed) (op : Operation) :
    p.lookUpFitting op = .ok (p.resolveFitting op) := by
  have known : ∀ id ∈ (p.arena.byTarget op.target).toList, ∃ o, p.arena.get? id = some o := by
    intro id listed
    obtain ⟨o, found, _⟩ := (Arena.mem_byTarget indexed id).mp (Array.mem_toList_iff.mp listed)
    exact ⟨o, found⟩
  obtain ⟨all, looked, members⟩ := foldlM_takeFitting_ok op _ known ∅
  rw [lookUpFitting, looked]
  apply congrArg Except.ok
  apply Std.ExtTreeSet.ext_mem
  intro id
  simp [members, resolveFitting, Std.ExtTreeSet.mem_ofList]

theorem mem_resolve (indexed : p.arena.Indexed) (op : Operation) (id : OccurrenceId) :
    id ∈ p.resolve op ↔ ∃ o, p.arena.get? id = some o ∧ o.target = op.target := by
  rw [resolve, Std.ExtTreeSet.mem_ofList, List.contains_iff_mem, Array.mem_toList_iff,
    Arena.mem_byTarget indexed]

theorem resolveFitting_eq_resolve (indexed : p.arena.Indexed) {op : Operation}
    (unsigned : op.signature = none) : p.resolveFitting op = p.resolve op := by
  apply Std.ExtTreeSet.ext_mem
  intro id
  rw [mem_resolveFitting indexed, mem_resolve indexed]
  simp [Occurrence.Matches, unsigned]

theorem ofAdditions_keyed (additions : List Addition) : (ofAdditions additions).arena.Keyed :=
  arena_induction Arena.empty_keyed (fun _ o keyed => Arena.push_keyed keyed o) additions

theorem get?_of_split (before : List Addition) (o : Occurrence) (after : List Addition) :
    (ofAdditions (before ++ .occurrence o :: after)).arena.get? (occurrencesOf before).length =
      some o := by
  rw [get?_ofAdditions, occurrencesOf_append,
    List.getElem?_append_right (le_refl _), Nat.sub_self]
  rfl

theorem stats_ofAdditions (additions : List Addition) : (ofAdditions additions).arena.stats =
    ⟨(occurrencesOf additions).length, ((occurrencesOf additions).map (·.target)).dedup.length,
      ((occurrencesOf additions).filterMap (·.base)).dedup.length⟩ := by
  rw [Arena.stats, size_ofAdditions, Arena.size_index (ofAdditions_keyed additions),
    Arena.size_bases, occurrences_ofAdditions]

/-- Whatever has been recorded, occurrences have the numbers from zero on in the order in which they
came, which fit into 32 bits while there are no more than that; the index lists those of each target
in increasing order, and what is found by way of the index is what a test of all occurrences finds.
To look its numbers up never fails. -/
theorem index_exact (additions : List Addition) :
    (∀ before o after, additions = before ++ .occurrence o :: after →
      (ofAdditions before).arena.nextId = (occurrencesOf before).length ∧
      (ofAdditions additions).arena.get? (occurrencesOf before).length = some o ∧
      ((occurrencesOf additions).length ≤ UInt32.size →
        (UInt32.ofNat (ofAdditions before).arena.nextId).toNat = (occurrencesOf before).length)) ∧
    (∀ target, ((ofAdditions additions).arena.byTarget target).toList.Pairwise (· < ·) ∧
      ∀ id, id ∈ (ofAdditions additions).arena.byTarget target ↔
        ∃ o, (occurrencesOf additions)[id]? = some o ∧ o.target = target) ∧
    (∀ op, ∃ targeted fitting,
      (ofAdditions additions).queries.resolve op = .ok targeted ∧
      (ofAdditions additions).queries.resolveFitting op = .ok fitting ∧
      (ofAdditions additions).lookUpFitting op = .ok fitting ∧
      (∀ id, id ∈ targeted ↔
        ∃ o, (occurrencesOf additions)[id]? = some o ∧ o.target = op.target) ∧
      (∀ id, id ∈ fitting ↔ ∃ o, (occurrencesOf additions)[id]? = some o ∧ o.fits op = true) ∧
      (∀ id ∈ fitting, id ∈ targeted) ∧ (op.signature = none → fitting = targeted)) ∧
    (ofAdditions additions).arena.stats =
      ⟨(occurrencesOf additions).length, ((occurrencesOf additions).map (·.target)).dedup.length,
        ((occurrencesOf additions).filterMap (·.base)).dedup.length⟩ := by
  have indexed := ofAdditions_indexed additions
  refine ⟨?_, ?_, ?_, stats_ofAdditions additions⟩
  · rintro before o after rfl
    have next : (ofAdditions before).arena.nextId = (occurrencesOf before).length :=
      size_ofAdditions before
    have found := get?_of_split before o after
    have known := Arena.lt_size_of_get? found
    rw [size_ofAdditions] at known
    refine ⟨next, found, fun few => ?_⟩
    rw [next, UInt32.toNat_ofNat', Nat.mod_eq_of_lt (known.trans_le few)]
  · intro target
    refine ⟨Arena.byTarget_increasing indexed target, fun id => ?_⟩
    rw [Arena.mem_byTarget indexed]
    simp only [get?_ofAdditions]
  · intro op
    refine ⟨_, _, rfl, rfl, lookUpFitting_eq indexed op, ?_, ?_, ?_, ?_⟩
    · intro id
      rw [mem_resolve indexed]
      simp only [get?_ofAdditions]
    · intro id
      rw [mem_resolveFitting indexed]
      simp only [get?_ofAdditions, Occurrence.fits_iff]
    · intro id found
      obtain ⟨o, known, fits⟩ := (mem_resolveFitting indexed op id).mp found
      exact (mem_resolve indexed op id).mpr ⟨o, known, fits.1⟩
    · exact resolveFitting_eq_resolve indexed

def ciphers : List Addition :=
  [.occurrence ⟨"init", "c.init(ENCRYPT)", "", .zero, some "c", 0, [⟨some "ENCRYPT", none⟩]⟩,
    .occurrence ⟨"seed", "seed()", "", .zero, none, 0, []⟩, .flow 0 5,
    .occurrence ⟨"init", "d.init(WRAP)", "", .zero, some "d", 0, [⟨some "WRAP", none⟩]⟩]

theorem ciphers_indexed : ∃ targeted fitting,
    (ofAdditions ciphers).arena.get? 2 =
      some ⟨"init", "d.init(WRAP)", "", .zero, some "d", 0, [⟨some "WRAP", none⟩]⟩ ∧
    (UInt32.ofNat (ofAdditions (ciphers.take 3)).arena.nextId).toNat = 2 ∧
    (ofAdditions ciphers).queries.resolve (.any "init") = .ok targeted ∧
    (ofAdditions ciphers).lookUpFitting ⟨"init", some [.oneOf ["ENCRYPT", "DECRYPT"]]⟩ =
      .ok fitting ∧
    (ofAdditions ciphers).queries.resolveFitting (.any "init") = .ok targeted ∧
    0 ∈ fitting ∧ 2 ∈ targeted ∧ 2 ∉ fitting ∧ (ofAdditions ciphers).arena.stats = ⟨3, 2, 2⟩ := by
  obtain ⟨numbers, _, finds, stats⟩ := index_exact ciphers
  obtain ⟨targeted, _, resolved, resolvedToo, _, isTargeted, _, _, unsigned⟩ :=
    finds (.any "init")
  obtain ⟨_, fitting, _, _, looked, _, isFitting, _, _⟩ :=
    finds ⟨"init", some [.oneOf ["ENCRYPT", "DECRYPT"]]⟩
  obtain ⟨_, kept, packed⟩ := numbers (ciphers.take 3) _ [] rfl
  refine ⟨targeted, fitting, kept, packed (by decide), resolved, looked,
    unsigned rfl ▸ resolvedToo, ?_, ?_, ?_, stats⟩
  · exact (isFitting 0).mpr ⟨_, rfl, by decide⟩
  · exact (isTargeted 2).mpr ⟨_, rfl, rfl⟩
  · intro fits
    obtain ⟨o, found, test⟩ := (isFitting 2).mp fits
    cases found
    revert test
    decide

end Program

end CallOrder
