import CallOrder.Proofs.History
import Mathlib.Data.List.Chain
import Mathlib.Data.List.TakeWhile

/-!
Which occurrences of a recorded program may run after which. Main statement: every question has an
answer or the error that its first unknown number makes, and the answers are the transitive closure
of the recorded flow.
-/

namespace CallOrder

section Paths

variable {α : Type} {r : α → α → Prop} {first last : α}

theorem exists_simple_path (leads : Relation.ReflTransGen r first last) :
    ∃ others, (first :: others).Nodup ∧ (first :: others).IsChain r ∧
      (first :: others).getLast? = some last := by
  induction leads using Relation.ReflTransGen.head_induction_on with
  | refl => exact ⟨[], List.nodup_singleton last, .singleton last, rfl⟩
  | @head first second link _ ih =>
      obtain ⟨others, distinct, chain, ends⟩ := ih
      by_cases back : first ∈ second :: others
      · -- the path comes back to where it began, and only what follows is needed
        obtain ⟨before, after, split⟩ := List.append_of_mem back
        rw [split] at distinct chain ends
        refine ⟨after, (List.nodup_append.mp distinct).2.1, chain.right_of_append, ?_⟩
        rwa [List.getLast?_append_of_ne_nil _ (List.cons_ne_nil first after)] at ends
      · refine ⟨second :: others, List.nodup_cons.mpr ⟨back, distinct⟩, ?_, ?_⟩
        · exact List.isChain_cons_cons.mpr ⟨link, chain⟩
        · rwa [List.getLast?_cons_cons]

theorem transGen_of_isChain {others : List α} (chain : (first :: others ++ [last]).IsChain r) :
    Relation.TransGen r first last := by
  induction others generalizing first with
  | nil => exact .single (List.isChain_pair.mp chain)
  | cons second others ih =>
      obtain ⟨link, rest⟩ := List.isChain_cons_cons.mp chain
      exact .head link (ih rest)

theorem transGen_self_iff : Relation.TransGen r first first ↔
    ∃ others, (first :: others).Nodup ∧ (first :: others ++ [first]).IsChain r := by
  constructor
  · intro around
    -- only what comes before the last step may come back, and that is cut short
    obtain ⟨last, leads, back⟩ := Relation.TransGen.tail'_iff.mp around
    obtain ⟨others, distinct, chain, ends⟩ := exists_simple_path leads
    refine ⟨others, distinct, chain.append (.singleton first) ?_⟩
    intro place final next begins
    rw [ends] at final
    cases final
    cases begins
    exact back
  · rintro ⟨others, _, chain⟩
    exact transGen_of_isChain chain

end Paths

namespace Program

variable {additions : List Addition} {source target : OccurrenceId}

theorem length_occurrencesOf_le {before after : List Addition} {addition : Addition} :
    (occurrencesOf before).length ≤ (occurrencesOf (before ++ addition :: after)).length := by
  rw [occurrencesOf_append, List.length_append]
  omega

theorem known_of_recorded (recorded : Recorded additions source target) :
    source < (occurrencesOf additions).length ∧ target < (occurrencesOf additions).length := by
  obtain ⟨before, addition, after, rfl, records⟩ := recorded
  have known : source < (occurrencesOf before).length ∧ target < (occurrencesOf before).length := by
    cases addition with
    | occurrence o => exact records.elim
    | flow a b =>
        obtain ⟨known, rfl, rfl⟩ := records
        exact known
    | chain ids =>
        have within : ∀ id ∈ [source, target], id < (occurrencesOf before).length := by
          intro id listed
          simpa using List.mem_takeWhile_imp (records.subset listed)
        exact ⟨within source (by simp), within target (by simp)⟩
  exact ⟨known.1.trans_le length_occurrencesOf_le, known.2.trans_le length_occurrencesOf_le⟩

theorem known_of_flowsTo (flows : FlowsTo additions source target) :
    source < (occurrencesOf additions).length ∧ target < (occurrencesOf additions).length := by
  obtain ⟨_, first, _⟩ := Relation.TransGen.head'_iff.mp flows
  obtain ⟨_, _, final⟩ := Relation.TransGen.tail'_iff.mp flows
  exact ⟨(known_of_recorded first).1, (known_of_recorded final).2⟩

/-- Some occurrences, `id` first and no two alike, may run one directly after the other and then
`id` again. -/
def OnCycle (additions : List Addition) (id : OccurrenceId) : Prop :=
  ∃ others : List OccurrenceId, (id :: others).Nodup ∧
    (id :: others ++ [id]).IsChain (Recorded additions)

def firstUnknown? (additions : List Addition) (source target : OccurrenceId) :
    Option OccurrenceId :=
  [source, target].find? fun id => (occurrencesOf additions).length ≤ id

theorem firstUnknown?_eq_none_iff : firstUnknown? additions source target = none ↔
    source < (occurrencesOf additions).length ∧ target < (occurrencesOf additions).length := by
  simp [firstUnknown?]

theorem reachable_cases (additions : List Addition) (source target : OccurrenceId) :
    (firstUnknown? additions source target = none ∧ ∃ answer,
      (ofAdditions additions).reachable source target = .ok answer ∧
      (answer = true ↔ FlowsTo additions source target)) ∨
    ∃ id, firstUnknown? additions source target = some id ∧
      (ofAdditions additions).reachable source target = .error (.unknownOccurrence id) := by
  have sized := size_flow_ofAdditions additions
  by_cases known : source < (occurrencesOf additions).length
  · by_cases knownToo : target < (occurrencesOf additions).length
    · exact Or.inl ⟨firstUnknown?_eq_none_iff.mpr ⟨known, knownToo⟩,
        reachable_ofAdditions known knownToo⟩
    · refine Or.inr ⟨target, by simp [firstUnknown?, known, Nat.le_of_not_lt knownToo], ?_⟩
      rw [reachable, check_ok (sized ▸ known), check_error (sized ▸ knownToo)]
      rfl
  · refine Or.inr ⟨source, by simp [firstUnknown?, Nat.le_of_not_lt known], ?_⟩
    rw [reachable, check_error (sized ▸ known)]
    rfl

theorem reachable_eq_true_iff : (ofAdditions additions).reachable source target = .ok true ↔
    FlowsTo additions source target := by
  rcases reachable_cases additions source target with
    ⟨_, answer, asked, exact⟩ | ⟨id, unknown, asked⟩
  · rw [asked, ← exact, Except.ok.injEq]
  · rw [asked]
    constructor
    · intro answered
      cases answered
    · intro flows
      rw [firstUnknown?_eq_none_iff.mpr (known_of_flowsTo flows)] at unknown
      cases unknown

theorem reachable_eq_false_iff : (ofAdditions additions).reachable source target = .ok false ↔
    (source < (occurrencesOf additions).length ∧ target < (occurrencesOf additions).length) ∧
      ¬ FlowsTo additions source target := by
  rcases reachable_cases additions source target with
    ⟨known, answer, asked, exact⟩ | ⟨id, unknown, asked⟩
  · rw [asked, ← exact, Except.ok.injEq, and_iff_right (firstUnknown?_eq_none_iff.mp known),
      Bool.not_eq_true]
  · rw [asked, ← firstUnknown?_eq_none_iff, unknown]
    simp

theorem reachable_eq_error_iff {e : QueryError} :
    (ofAdditions additions).reachable source target = .error e ↔
      ∃ id, firstUnknown? additions source target = some id ∧ e = .unknownOccurrence id := by
  rcases reachable_cases additions source target with
    ⟨known, answer, asked, _⟩ | ⟨id, unknown, asked⟩
  · simp [asked, known]
  · rw [asked, unknown]
    simp [eq_comm]

/-- Whatever has been recorded, also where some additions failed: an occurrence reaches another one
exactly by one step of the recorded flow or more, the question is an error exactly where a number is
unknown, and the error names the first one. Reaching is transitive, and what reaches itself is what
lies on a cycle. -/
theorem reachability_exact (additions : List Addition) :
    (∀ source target,
      ((ofAdditions additions).reachable source target = .ok true ↔
        FlowsTo additions source target) ∧
      ((ofAdditions additions).reachable source target = .ok false ↔
        (source < (occurrencesOf additions).length ∧ target < (occurrencesOf additions).length) ∧
          ¬ FlowsTo additions source target) ∧
      ∀ e, (ofAdditions additions).reachable source target = .error e ↔
        ∃ id, firstUnknown? additions source target = some id ∧ e = .unknownOccurrence id) ∧
    (∀ source middle target, (ofAdditions additions).reachable source middle = .ok true →
      (ofAdditions additions).reachable middle target = .ok true →
      (ofAdditions additions).reachable source target = .ok true) ∧
    ∀ id, (ofAdditions additions).reachable id id = .ok true ↔ OnCycle additions id := by
  refine ⟨?_, ?_, ?_⟩
  · intro source target
    exact ⟨reachable_eq_true_iff, reachable_eq_false_iff, fun _ => reachable_eq_error_iff⟩
  · intro source middle target first second
    rw [reachable_eq_true_iff] at first second ⊢
    exact first.trans second
  · intro id
    rw [reachable_eq_true_iff]
    exact transGen_self_iff

def seeking : List Addition :=
  [.occurrence ⟨"open", "f.open()", "", .zero, some "f", 0, []⟩,
    .occurrence ⟨"seek", "f.seek()", "", .zero, some "f", 1, []⟩,
    .occurrence ⟨"read", "f.read()", "", .zero, some "f", 2, []⟩, .chain [0, 1, 2, 1],
    .occurrence ⟨"close", "f.close()", "", .zero, some "f", 3, []⟩, .flow 2 3, .flow 3 9,
    .chain [3, 8, 0]]

theorem seeking_reachable :
    (ofAdditions seeking).reachable 0 2 = .ok true ∧
    (ofAdditions seeking).reachable 2 3 = .ok true ∧
    (ofAdditions seeking).reachable 0 3 = .ok true ∧
    (ofAdditions seeking).reachable 3 0 = .ok false ∧ ¬ FlowsTo seeking 3 0 ∧
    (ofAdditions seeking).reachable 9 8 = .error (.unknownOccurrence 9) ∧
    OnCycle seeking 1 ∧ ¬ OnCycle seeking 0 := by
  obtain ⟨exact, trans, cycles⟩ := reachability_exact seeking
  have first : (ofAdditions seeking).reachable 0 2 = .ok true := by decide +kernel
  have second : (ofAdditions seeking).reachable 2 3 = .ok true := by decide +kernel
  have never : (ofAdditions seeking).reachable 3 0 = .ok false := by decide +kernel
  refine ⟨first, second, trans 0 2 3 first second, never, ?_, ?_, ?_, ?_⟩
  · exact ((exact 3 0).2.1.mp never).2
  · exact ((exact 9 8).2.2 _).mpr ⟨9, by decide +kernel, rfl⟩
  · apply (cycles 1).mp
    decide +kernel
  · rw [← cycles 0]
    decide +kernel

end Program

end CallOrder
