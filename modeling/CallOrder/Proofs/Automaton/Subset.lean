import CallOrder.Automaton.Subset
import CallOrder.Proofs.Automaton.Dfa
import CallOrder.Proofs.Automaton.Reading
import CallOrder.Proofs.Result

/-! Determinisation: the sets of states that are found, their numbers, and the runs of the
deterministic automaton, which are the runs of the simulation. -/

namespace CallOrder

namespace Discovery

variable {limits : Limits} {n : Nfa} {set : Std.ExtTreeSet Nat} {tokens : List Token}
  {row row' : Std.ExtTreeMap Token Nat} {d d' : Discovery}

def Numbered (d : Discovery) : Prop :=
  ∀ (set : Std.ExtTreeSet Nat) (i : Nat), d.numbers[set.toList]? = some i ↔ d.sets[i]? = some set

/-- All that was found before is still there, under the same number. -/
def Grows (d d' : Discovery) : Prop :=
  ∀ (i : Nat) (set : Std.ExtTreeSet Nat), d.sets[i]? = some set → d'.sets[i]? = some set

theorem Grows.refl (d : Discovery) : d.Grows d :=
  fun _ _ found => found

theorem Grows.trans {middle : Discovery} (first : d.Grows middle) (second : middle.Grows d') :
    d.Grows d' :=
  fun i set found => second i set (first i set found)

theorem numbered_empty : Numbered empty := by
  intro set i
  simp [empty]

theorem Numbered.distinct (numbered : d.Numbered) {i j : Nat} (first : d.sets[i]? = some set)
    (second : d.sets[j]? = some set) : i = j := by
  have here := (numbered set i).mpr first
  have there := (numbered set j).mpr second
  exact Option.some.inj (here.symm.trans there)

theorem numbered_push (numbered : d.Numbered) (unknown : d.numbers[set.toList]? = none) :
    Numbered ⟨d.sets.push set, d.numbers.insert set.toList d.sets.size⟩ := by
  intro other i
  rw [Std.ExtTreeMap.getElem?_insert, Array.getElem?_push]
  by_cases same : set = other
  · subst same
    have absent : ∀ i : Nat, d.sets[i]? ≠ some set := by
      intro i found
      rw [(numbered set i).mpr found] at unknown
      cases unknown
    by_cases last : i = d.sets.size
    · simp [last]
    · have other : ¬ d.sets.size = i := fun eq => last eq.symm
      simp [last, other, absent]
  · have differs : compare set.toList other.toList ≠ .eq := by
      intro equal
      exact same (Std.ExtTreeSet.toList_inj.mp (Std.LawfulEqOrd.eq_of_compare equal))
    rw [if_neg differs, numbered other i]
    split
    · rename_i last
      subst last
      simp [same]
    · rfl

theorem number_ok {i : Nat} (done : d.number limits set = .ok (i, d')) (numbered : d.Numbered) :
    d'.Numbered ∧ d'.sets[i]? = some set ∧
      (d' = d ∨ d.sets.size < limits.maxDfaStates ∧ d'.sets = d.sets.push set) := by
  rw [number] at done
  split at done
  · rename_i known found
    cases done
    exact ⟨numbered, (numbered set i).mp found, Or.inl rfl⟩
  · rename_i unknown
    split at done
    · rename_i room
      cases done
      exact ⟨numbered_push numbered unknown, by simp, Or.inr ⟨room, rfl⟩⟩
    · cases done

/-- What a run of discovery keeps: sets have one number each, within the limit, and satisfy
`Found`. -/
structure Sound (limits : Limits) (Found : Std.ExtTreeSet Nat → Prop) (d : Discovery) : Prop where
  numbered : d.Numbered
  size_le : d.sets.size ≤ limits.maxDfaStates
  found : ∀ (i : Nat) (set : Std.ExtTreeSet Nat), d.sets[i]? = some set → Found set

variable {Found : Std.ExtTreeSet Nat → Prop}

theorem number_sound {i : Nat} (done : d.number limits set = .ok (i, d'))
    (sound : d.Sound limits Found) (new : Found set) :
    d'.Sound limits Found ∧ d.Grows d' ∧ d'.sets[i]? = some set := by
  obtain ⟨numbered, there, rfl | ⟨room, sets⟩⟩ := number_ok done sound.numbered
  · exact ⟨sound, Grows.refl _, there⟩
  · refine ⟨⟨numbered, by rw [sets, Array.size_push]; omega, ?_⟩, ?_, there⟩
    · intro j other found
      rw [sets, Array.getElem?_push] at found
      split at found
      · cases found
        exact new
      · exact sound.found j other found
    · intro j other found
      have below : j < d.sets.size := (Array.getElem?_eq_some_iff.mp found).1
      rw [sets, Array.getElem?_push, if_neg (by omega)]
      exact found

theorem number_first {i : Nat} (done : empty.number limits set = .ok (i, d)) (new : Found set) :
    d.Sound limits Found ∧ i = 0 ∧ d.sets[i]? = some set := by
  have nothing : empty.Sound limits Found :=
    ⟨numbered_empty, Nat.zero_le _, by simp [empty]⟩
  obtain ⟨sound, _, there⟩ := number_sound done nothing new
  refine ⟨sound, ?_, there⟩
  obtain ⟨_, _, rfl | ⟨_, sets⟩⟩ := number_ok done numbered_empty
  · simp [empty] at there
  · have below := (Array.getElem?_eq_some_iff.mp there).1
    rw [sets, Array.size_push] at below
    exact Nat.lt_one_iff.mp below

/-- The entries of the row are numbers of the sets that `set` leads to. -/
def Leads (n : Nfa) (d : Discovery) (set : Std.ExtTreeSet Nat) (row : Std.ExtTreeMap Token Nat) :
    Prop :=
  ∀ (token : Token) (i : Nat), row[token]? = some i →
    d.sets[i]? = some (n.advance set token) ∧ n.advance set token ≠ ∅

theorem Leads.mono (leads : Leads n d set row) (grown : d.Grows d') : Leads n d' set row :=
  fun token i entry => ⟨grown _ _ (leads token i entry).1, (leads token i entry).2⟩

theorem Leads.insert {token : Token} {i : Nat} (leads : Leads n d set row)
    (there : d.sets[i]? = some (n.advance set token)) (somewhere : n.advance set token ≠ ∅) :
    Leads n d set (row.insert token i) := by
  intro other j entry
  rw [Std.ExtTreeMap.getElem?_insert] at entry
  split at entry
  · rename_i same
    cases entry
    rw [← Std.LawfulEqOrd.eq_of_compare same]
    exact ⟨there, somewhere⟩
  · exact leads other j entry

theorem transitions_ok (new : ∀ token, n.advance set token ≠ ∅ → Found (n.advance set token))
    (done : d.transitions limits n set tokens row = .ok (row', d')) (sound : d.Sound limits Found)
    (leads : Leads n d set row) :
    d'.Sound limits Found ∧ d.Grows d' ∧ Leads n d' set row' ∧
      ∀ token : Token, row'[token]? = none →
        row[token]? = none ∧ (token ∈ tokens → n.advance set token = ∅) := by
  induction tokens generalizing d row with
  | nil =>
      cases done
      exact ⟨sound, Grows.refl _, leads, fun token missing => ⟨missing, by simp⟩⟩
  | cons token tokens ih =>
      rw [transitions] at done
      -- a token that leads nowhere gets no entry, and nothing new is found by it
      by_cases nowhere : (n.advance set token).isEmpty = true
      · rw [if_pos nowhere] at done
        obtain ⟨soundToo, grown, leadsToo, misses⟩ := ih done sound leads
        refine ⟨soundToo, grown, leadsToo, ?_⟩
        intro other missing
        refine ⟨(misses other missing).1, ?_⟩
        intro present
        rcases List.mem_cons.mp present with rfl | present
        · exact Std.ExtTreeSet.isEmpty_iff.mp nowhere
        · exact (misses other missing).2 present
      · rw [if_neg nowhere] at done
        obtain ⟨⟨i, middle⟩, numbered, rest⟩ := bind_eq_ok done
        have somewhere : n.advance set token ≠ ∅ := fun empty =>
          nowhere (Std.ExtTreeSet.isEmpty_iff.mpr empty)
        obtain ⟨soundToo, grown, there⟩ := number_sound numbered sound (new token somewhere)
        have inserted := (leads.mono grown).insert there somewhere
        obtain ⟨soundThree, grownToo, leadsToo, misses⟩ := ih rest soundToo inserted
        refine ⟨soundThree, grown.trans grownToo, leadsToo, ?_⟩
        intro other missing
        have absent := (misses other missing).1
        rw [Std.ExtTreeMap.getElem?_insert] at absent
        split at absent
        · cases absent
        · rename_i differs
          refine ⟨absent, ?_⟩
          intro present
          rcases List.mem_cons.mp present with rfl | present
          · exact absurd Std.ReflCmp.compare_self differs
          · exact (misses other missing).2 present

variable {rows rows' : Array (Std.ExtTreeMap Token Nat)}

structure Row (n : Nfa) (d : Discovery) (set : Std.ExtTreeSet Nat)
    (row : Std.ExtTreeMap Token Nat) : Prop where
  leads : Leads n d set row
  misses : ∀ token : Token, row[token]? = none → n.advance set token = ∅

/-- What is known while sets are dealt with one after the other: there are complete rows for the
first of them. -/
structure Explored (limits : Limits) (n : Nfa) (Found : Std.ExtTreeSet Nat → Prop) (d : Discovery)
    (rows : Array (Std.ExtTreeMap Token Nat)) : Prop extends d.Sound limits Found where
  rows_le : rows.size ≤ d.sets.size
  complete : ∀ (i : Nat) (row : Std.ExtTreeMap Token Nat), rows[i]? = some row →
    ∃ set, d.sets[i]? = some set ∧ Row n d set row

theorem Explored.row_of_finished (explored : Explored limits n Found d rows)
    (finished : rows.size = d.sets.size) {i : Nat} (known : d.sets[i]? = some set) :
    Row n d set (rows.getD i ∅) := by
  have below : i < rows.size := finished ▸ (Array.getElem?_eq_some_iff.mp known).1
  have filled : rows[i]? = some rows[i] := Array.getElem?_eq_getElem below
  obtain ⟨same, found, row⟩ := explored.complete i rows[i] filled
  rw [Array.getD_eq_getD_getElem?, filled, Option.getD_some]
  rw [found] at known
  cases known
  exact row

theorem advance_of_not_outgoing {token : Token} (absent : token ∉ n.outgoing set) :
    n.advance set token = ∅ := by
  rw [Std.ExtTreeSet.eq_empty_iff_forall_not_mem]
  intro target reached
  obtain ⟨source, present, middle, edge, _⟩ := Nfa.mem_advance.mp reached
  exact absent (Nfa.mem_outgoing.mpr ⟨source, present, middle, edge⟩)

theorem explored_push
    (new : ∀ set token, Found set → n.advance set token ≠ ∅ → Found (n.advance set token))
    (explored : Explored limits n Found d rows) (next : d.sets[rows.size]? = some set)
    (done : d.transitions limits n set (n.outgoing set).toList ∅ = .ok (row, d')) :
    Explored limits n Found d' (rows.push row) ∧ d.Grows d' := by
  have here : Found set := explored.found rows.size set next
  obtain ⟨sound, grown, leads, misses⟩ := transitions_ok (fun token => new set token here) done
    explored.toSound (by intro token i entry; simp at entry)
  have filled : Row n d' set row := by
    refine ⟨leads, ?_⟩
    intro token missing
    by_cases outgoing : token ∈ n.outgoing set
    · exact (misses token missing).2 (Std.ExtTreeSet.mem_toList.mpr outgoing)
    · exact advance_of_not_outgoing outgoing
  have below : rows.size < d'.sets.size := (Array.getElem?_eq_some_iff.mp (grown _ _ next)).1
  refine ⟨⟨sound, by rw [Array.size_push]; omega, ?_⟩, grown⟩
  intro i other entry
  rw [Array.getElem?_push] at entry
  split at entry
  · rename_i last
    cases entry
    exact ⟨set, last ▸ grown _ _ next, filled⟩
  · obtain ⟨earlier, known, old⟩ := explored.complete i other entry
    exact ⟨earlier, grown _ _ known, old.leads.mono grown, old.misses⟩

/-- Exploration ends with a row for every set: it has as many steps as there may be sets. -/
theorem explore_ok
    (new : ∀ set token, Found set → n.advance set token ≠ ∅ → Found (n.advance set token))
    {steps : Nat} (explored : Explored limits n Found d rows)
    (enough : limits.maxDfaStates ≤ rows.size + steps)
    (done : d.explore limits n steps rows = .ok (d', rows')) :
    Explored limits n Found d' rows' ∧ d.Grows d' ∧ rows'.size = d'.sets.size := by
  -- every step adds a row, so without steps left there are as many rows as sets are allowed
  induction steps generalizing d rows with
  | zero =>
      cases done
      have := explored.size_le
      have := explored.rows_le
      exact ⟨explored, Grows.refl _, by omega⟩
  | succ steps ih =>
      rw [explore] at done
      split at done
      · rename_i finished
        cases done
        have := Array.getElem?_eq_none_iff.mp finished
        have := explored.rows_le
        exact ⟨explored, Grows.refl _, by omega⟩
      · rename_i set next
        obtain ⟨⟨row, middle⟩, filled, rest⟩ := bind_eq_ok done
        obtain ⟨more, grown⟩ := explored_push new explored next filled
        obtain ⟨all, grownToo, finished⟩ := ih more (by rw [Array.size_push]; omega) rest
        exact ⟨all, grown.trans grownToo, finished⟩

end Discovery

namespace Dfa

/-- The automaton runs in step with the simulation of `n`: its states are the sets that the
simulation can be in, each once, and its transitions go where the simulation goes. -/
structure Simulates (dfa : Dfa) (n : Nfa) : Prop where
  start_eq : dfa.start = 0
  initial : ∃ state, dfa.state? 0 = some state ∧ state.members = n.initial
  id_eq : ∀ i state, dfa.state? i = some state → state.id = i
  accepting : ∀ i state, dfa.state? i = some state →
    state.accepting = state.members.contains n.accept
  distinct : ∀ i j state other, dfa.state? i = some state → dfa.state? j = some other →
    state.members = other.members → i = j
  reached : ∀ i state, dfa.state? i = some state →
    state.members ≠ ∅ ∧ ∃ word, n.run word = state.members
  leads : ∀ i state token j, dfa.state? i = some state → state.transitions[token]? = some j →
    ∃ next, dfa.state? j = some next ∧ next.members = n.advance state.members token
  misses : ∀ i state token, dfa.state? i = some state → state.transitions[token]? = none →
    n.advance state.members token = ∅

end Dfa

namespace Nfa

variable {n : Nfa}

theorem initial_ne_empty : n.initial ≠ ∅ := by
  intro empty
  have present : n.start ∈ n.initial := mem_initial.mpr (.done n.start)
  rw [empty] at present
  exact Std.ExtTreeSet.not_mem_empty present

theorem run_append_singleton (word : List Token) (token : Token) :
    n.run (word ++ [token]) = n.advance (n.run word) token := by
  rw [run, List.foldl_append]
  rfl

theorem state?_mapIdx {d : Discovery} {rows : Array (Std.ExtTreeMap Token Nat)} {start : Nat}
    {bases : Std.ExtTreeSet Base} {i : Nat} {state : Dfa.State} :
    (Dfa.mk (d.sets.mapIdx fun i set => ⟨i, set, set.contains n.accept, rows.getD i ∅⟩) start
      bases).state? i = some state ↔
    ∃ set, d.sets[i]? = some set ∧ ⟨i, set, set.contains n.accept, rows.getD i ∅⟩ = state := by
  rw [Dfa.state?, Array.getElem?_mapIdx, Option.map_eq_some_iff]

/-- The simulation is in exactly these states, and in some, after some word. -/
def Visits (n : Nfa) (set : Std.ExtTreeSet Nat) : Prop :=
  set ≠ ∅ ∧ ∃ word, n.run word = set

theorem visits_initial : n.Visits n.initial :=
  ⟨initial_ne_empty, [], rfl⟩

theorem Visits.advance {set : Std.ExtTreeSet Nat} (visits : n.Visits set) (token : Token)
    (somewhere : n.advance set token ≠ ∅) : n.Visits (n.advance set token) := by
  obtain ⟨_, word, rfl⟩ := visits
  exact ⟨somewhere, word ++ [token], run_append_singleton word token⟩

theorem determinize_simulates {limits : Limits} {bases : Std.ExtTreeSet Base} {dfa : Dfa}
    (done : n.determinize limits bases = .ok dfa) : dfa.Simulates n ∧ dfa.bases = bases := by
  obtain ⟨⟨start, first⟩, numbered, rest⟩ := bind_eq_ok done
  obtain ⟨⟨d, rows⟩, explored, rest⟩ := bind_eq_ok rest
  cases rest
  obtain ⟨sound, rfl, there⟩ := Discovery.number_first numbered visits_initial
  have beginning : Discovery.Explored limits n n.Visits first #[] :=
    ⟨sound, Nat.zero_le _, by simp⟩
  obtain ⟨all, grown, finished⟩ := Discovery.explore_ok
    (fun _ token visits => visits.advance token) beginning (by simp) explored
  refine ⟨⟨rfl, ?_, ?_, ?_, ?_, ?_, ?_, ?_⟩, rfl⟩
  · exact ⟨_, state?_mapIdx.mpr ⟨_, grown _ _ there, rfl⟩, rfl⟩
  · intro i state found
    obtain ⟨set, _, rfl⟩ := state?_mapIdx.mp found
    rfl
  · intro i state found
    obtain ⟨set, _, rfl⟩ := state?_mapIdx.mp found
    rfl
  · intro i j state other found foundToo same
    obtain ⟨set, known, rfl⟩ := state?_mapIdx.mp found
    obtain ⟨_, knownToo, rfl⟩ := state?_mapIdx.mp foundToo
    cases same
    exact all.numbered.distinct known knownToo
  · intro i state found
    obtain ⟨set, known, rfl⟩ := state?_mapIdx.mp found
    exact all.found i set known
  · intro i state token j found entry
    obtain ⟨set, known, rfl⟩ := state?_mapIdx.mp found
    obtain ⟨next, _⟩ := (all.row_of_finished finished known).leads token j entry
    exact ⟨_, state?_mapIdx.mpr ⟨_, next, rfl⟩, rfl⟩
  · intro i state token found missing
    obtain ⟨set, known, rfl⟩ := state?_mapIdx.mp found
    exact (all.row_of_finished finished known).misses token missing

theorem foldl_advance_empty (word : List Token) : word.foldl n.advance ∅ = ∅ := by
  induction word with
  | nil => rfl
  | cons token word ih =>
      have nowhere : n.advance ∅ token = ∅ := by
        rw [Std.ExtTreeSet.eq_empty_iff_forall_not_mem]
        intro target reached
        obtain ⟨source, present, _⟩ := mem_advance.mp reached
        exact Std.ExtTreeSet.not_mem_empty present
      rw [List.foldl_cons, nowhere, ih]

end Nfa

namespace Dfa.Simulates

variable {dfa : Dfa} {n : Nfa}

theorem run_from (simulates : dfa.Simulates n) {i : Nat} {state : State}
    (found : dfa.state? i = some state) (word : List Token) :
    (∀ j, dfa.run? i word = some j →
      ∃ next, dfa.state? j = some next ∧ next.members = word.foldl n.advance state.members) ∧
    (dfa.run? i word = none → word.foldl n.advance state.members = ∅) := by
  induction word generalizing i state with
  | nil =>
      refine ⟨?_, by simp [run?]⟩
      intro j run
      cases run
      exact ⟨state, found, rfl⟩
  | cons token word ih =>
      rw [run?, next?_eq found, List.foldl_cons]
      cases entry : state.transitions[token]? with
      | none =>
          rw [simulates.misses i state token found entry, Nfa.foldl_advance_empty]
          simp
      | some j =>
          obtain ⟨next, foundToo, members⟩ := simulates.leads i state token j found entry
          rw [← members]
          exact ih foundToo

theorem state_of_run (simulates : dfa.Simulates n) {word : List Token} {i : Nat}
    (run : dfa.run? dfa.start word = some i) :
    ∃ state, dfa.state? i = some state ∧ state.members = n.run word := by
  obtain ⟨first, found, members⟩ := simulates.initial
  rw [simulates.start_eq] at run
  obtain ⟨state, there, same⟩ := (simulates.run_from found word).1 i run
  exact ⟨state, there, by rw [same, members]; rfl⟩

theorem run_isSome (simulates : dfa.Simulates n) (word : List Token) :
    (dfa.run? dfa.start word).isSome = true ↔ n.run word ≠ ∅ := by
  constructor
  · intro defined
    obtain ⟨i, run⟩ := Option.isSome_iff_exists.mp defined
    obtain ⟨state, found, members⟩ := simulates.state_of_run run
    rw [← members]
    exact (simulates.reached i state found).1
  · intro somewhere
    by_contra undefined
    obtain ⟨first, found, members⟩ := simulates.initial
    rw [Option.not_isSome_iff_eq_none, simulates.start_eq] at undefined
    have nowhere := (simulates.run_from found word).2 undefined
    rw [members] at nowhere
    exact somewhere nowhere

theorem run_to (simulates : dfa.Simulates n) {i : Nat} {state : State}
    (found : dfa.state? i = some state) : ∃ word, dfa.run? dfa.start word = some i := by
  obtain ⟨somewhere, word, members⟩ := simulates.reached i state found
  refine ⟨word, ?_⟩
  rw [← members] at somewhere
  obtain ⟨j, run⟩ := Option.isSome_iff_exists.mp ((simulates.run_isSome word).mpr somewhere)
  obtain ⟨other, foundToo, same⟩ := simulates.state_of_run run
  rw [run, simulates.distinct i j state other found foundToo (by rw [same, members])]

theorem isAccepting_eq (simulates : dfa.Simulates n) {i : Nat} {state : State}
    (found : dfa.state? i = some state) :
    dfa.isAccepting i = state.members.contains n.accept := by
  rw [isAccepting, found, Option.any_some, simulates.accepting i state found]

theorem isAccepting_of_run (simulates : dfa.Simulates n) {word : List Token} {i : Nat}
    (run : dfa.run? dfa.start word = some i) : dfa.isAccepting i = n.accepts word := by
  obtain ⟨state, found, members⟩ := simulates.state_of_run run
  rw [simulates.isAccepting_eq found, members, Nfa.accepts]

theorem accepts_eq (simulates : dfa.Simulates n) (word : List Token) :
    dfa.accepts word = n.accepts word := by
  cases run : dfa.run? dfa.start word with
  | some i =>
      rw [accepts, run, Option.any_some]
      exact simulates.isAccepting_of_run run
  | none =>
      have nowhere : n.run word = ∅ := by
        by_contra somewhere
        have defined := (simulates.run_isSome word).mpr somewhere
        rw [run] at defined
        cases defined
      rw [accepts, run, Option.any_none, Nfa.accepts, nowhere]
      simp

end Dfa.Simulates

end CallOrder
