import CallOrder.Proofs.Automaton.BreadthFirst
import CallOrder.Proofs.Compilation
import Mathlib.Data.List.Shortlex

/-! The numbers of the states of a compiled pattern, which are in the order of the least words that
lead to the states. -/

namespace CallOrder

/-- Shorter words come first, and words of one length by the bytes of their tokens. -/
def WordBefore : List Token → List Token → Prop :=
  List.Shortlex fun token other => Text.bytes token < Text.bytes other

namespace WordBefore

variable {first second third : List Token} {token other : Token}

theorem eq_shortlex : WordBefore = List.Shortlex (· < ·) := by
  have same : (fun token other : Token => Text.bytes token < Text.bytes other) = (· < ·) :=
    funext₂ fun _ _ => propext Text.lt_iff_bytes_lt.symm
  rw [WordBefore, same]

theorem trans (before : WordBefore first second) (after : WordBefore second third) :
    WordBefore first third := by
  rw [eq_shortlex, List.shortlex_def] at before after ⊢
  rcases before with shorter | ⟨level, less⟩
  · rcases after with shorterToo | ⟨levelToo, _⟩ <;> omega
  · rcases after with shorterToo | ⟨levelToo, lessToo⟩
    · omega
    · exact Or.inr ⟨level.trans levelToo, @lt_trans (List Token) _ _ _ _ less lessToo⟩

theorem asymm (before : WordBefore first second) : ¬ WordBefore second first := by
  rw [eq_shortlex] at before ⊢
  exact Std.Asymm.asymm _ _ before

theorem nil_append_singleton (word : List Token) (token : Token) :
    WordBefore [] (word ++ [token]) := by
  apply List.Shortlex.of_length_lt
  simp

theorem append_singleton (before : WordBefore first second) (token other : Token) :
    WordBefore (first ++ [token]) (second ++ [other]) := by
  rw [eq_shortlex, List.shortlex_def] at before ⊢
  simp only [List.length_append, List.length_singleton]
  rcases before with shorter | ⟨level, less⟩
  · exact Or.inl (by omega)
  · refine Or.inr ⟨by omega, ?_⟩
    induction less with
    | nil => cases level
    | rel first => exact .rel first
    | cons _ ih => exact .cons (ih (by simpa using level))

theorem append_of_lt (word : List Token) (less : token < other) :
    WordBefore (word ++ [token]) (word ++ [other]) := by
  rw [eq_shortlex]
  exact List.Shortlex.append_left (List.shortlex_singleton_iff token other |>.mpr less) word

end WordBefore

namespace Dfa

/-- The words that are read along the transitions by which states are found. -/
inductive Traces (dfa : Dfa) : List Token → Nat → Prop where
  | start : Traces dfa [] 0
  | step {word : List Token} {i target : Nat} {token : Token} (rest : Traces dfa word i)
      (positive : 0 < target) (finds : Table.Finds dfa.next? i token target) :
      Traces dfa (word ++ [token]) target

structure LeastWord (dfa : Dfa) (word : List Token) (i : Nat) : Prop where
  leads : dfa.run? dfa.start word = some i
  least : ∀ other, dfa.run? dfa.start other = some i → other ≠ word → WordBefore word other

namespace Traces

variable {dfa : Dfa} {word other : List Token} {i j : Nat}

theorem exists_of_lt (search : Table.BreadthFirst dfa.next? dfa.size) (below : i < dfa.size) :
    ∃ word, dfa.Traces word i := by
  induction i using Nat.strongRecOn with
  | ind i ih =>
      rcases Nat.eq_zero_or_pos i with rfl | positive
      · exact ⟨[], .start⟩
      · obtain ⟨j, lower, token, finds⟩ := search.found i positive below
        obtain ⟨word, traces⟩ := ih j lower (by omega)
        exact ⟨word ++ [token], .step traces positive finds⟩

theorem unique (first : dfa.Traces word i) (second : dfa.Traces other i) : word = other := by
  induction first generalizing other with
  | start =>
      cases second with
      | start => rfl
      | step _ positive => exact absurd positive (lt_irrefl 0)
  | step _ positive finds ih =>
      cases second with
      | start => exact absurd positive (lt_irrefl 0)
      | step rest _ findsToo =>
          obtain ⟨rfl, rfl⟩ := finds.unique findsToo
          rw [ih rest]

theorem run (start : dfa.start = 0) (traces : dfa.Traces word i) :
    dfa.run? dfa.start word = some i := by
  induction traces with
  | start => rw [start, run?]
  | step _ _ finds ih => rw [run?_append, ih, Option.bind_some, run?_singleton, finds.leads]

theorem before_of_place {k l : Nat} {token last : Token} (first : dfa.Traces word k)
    (second : dfa.Traces other l) (earlier : Table.place k token < Table.place l last)
    (ordered : k < l → WordBefore word other) :
    WordBefore (word ++ [token]) (other ++ [last]) := by
  rcases Table.place_lt_iff.mp earlier with lower | ⟨rfl, less⟩
  · exact (ordered lower).append_singleton token last
  · rw [first.unique second]
    exact WordBefore.append_of_lt other less

theorem before_of_lt (search : Table.BreadthFirst dfa.next? dfa.size) (first : dfa.Traces word i)
    (second : dfa.Traces other j) (lower : i < j) : WordBefore word other := by
  induction second generalizing word i with
  | start => omega
  | step rest positive finds ih =>
      cases first with
      | start => exact WordBefore.nil_append_singleton _ _
      | step restToo positiveToo findsToo =>
          have earlier := search.place_lt findsToo finds positiveToo lower
          exact before_of_place restToo rest earlier (ih restToo)

theorem le_of_place (search : Table.BreadthFirst dfa.next? dfa.size) {k l : Nat}
    {token last : Token} (first : dfa.Traces word k) (second : dfa.Traces other l)
    (place : Table.place k token ≤ Table.place l last) :
    word ++ [token] = other ++ [last] ∨ WordBefore (word ++ [token]) (other ++ [last]) := by
  rcases lt_or_eq_of_le place with earlier | same
  · exact Or.inr (before_of_place first second earlier fun lower =>
      before_of_lt search first second lower)
  · obtain ⟨rfl, rfl⟩ := Prod.mk.inj (toLex.injective same)
    rw [first.unique second]
    exact Or.inl rfl

theorem least (search : Table.BreadthFirst dfa.next? dfa.size) (start : dfa.start = 0)
    (traces : dfa.Traces word i) (run : dfa.run? dfa.start other = some i) :
    word = other ∨ WordBefore word other := by
  induction other using List.reverseRecOn generalizing word i with
  | nil =>
      rw [run?, start] at run
      cases run
      exact Or.inl (traces.unique .start)
  | append_singleton other last ih =>
      rw [run?_append] at run
      obtain ⟨l, before, next⟩ := Option.bind_eq_some_iff.mp run
      rw [run?_singleton] at next
      have known : l < dfa.size := by
        obtain ⟨state, found, _⟩ := Option.bind_eq_some_iff.mp next
        exact (Array.getElem?_eq_some_iff.mp found).1
      cases traces with
      | start => exact Or.inr (WordBefore.nil_append_singleton other last)
      | step rest positive finds =>
          -- compared by way of the least word for the state before the last token
          obtain ⟨middle, tracesToo⟩ := exists_of_lt search known
          have first := le_of_place search rest tracesToo (finds.first l last next)
          have second : middle ++ [last] = other ++ [last] ∨
              WordBefore (middle ++ [last]) (other ++ [last]) :=
            (ih tracesToo before).imp (fun same => by rw [same])
              fun less => less.append_singleton last last
          rcases first with same | less
          · rwa [same]
          · rcases second with same | lessToo
            · rw [← same]
              exact Or.inr less
            · exact Or.inr (less.trans lessToo)

theorem leastWord (search : Table.BreadthFirst dfa.next? dfa.size) (start : dfa.start = 0)
    (traces : dfa.Traces word i) : dfa.LeastWord word i := by
  refine ⟨traces.run start, ?_⟩
  intro other run differs
  exact (traces.least search start run).resolve_left fun same => differs same.symm

end Traces

/-- Where states are numbered breadth first, their numbers are in the order of their least words. -/
theorem exists_leastWords {dfa : Dfa} (search : Table.BreadthFirst dfa.next? dfa.size)
    (start : dfa.start = 0) : ∃ word : Nat → List Token,
      (∀ i < dfa.size, dfa.LeastWord (word i) i) ∧
      ∀ i < dfa.size, ∀ j < dfa.size, i < j ↔ WordBefore (word i) (word j) := by
  have traced : ∀ i, ∃ word, i < dfa.size → dfa.Traces word i := by
    intro i
    by_cases known : i < dfa.size
    · obtain ⟨word, traces⟩ := Traces.exists_of_lt search known
      exact ⟨word, fun _ => traces⟩
    · exact ⟨[], fun below => absurd below known⟩
  choose word traces using traced
  refine ⟨word, fun i below => (traces i below).leastWord search start, ?_⟩
  intro i below j belowToo
  have forward := (traces i below).before_of_lt search (traces j belowToo)
  refine ⟨forward, ?_⟩
  intro before
  rcases Nat.lt_trichotomy i j with lower | rfl | higher
  · exact lower
  · exact absurd before before.asymm
  · exact absurd before ((traces j belowToo).before_of_lt search (traces i below) higher).asymm

end Dfa

namespace Pattern

/-- The states of a compiled automaton are the sets of states that the simulation can be in, each
once, numbered in the order of the least words that lead to them. -/
theorem compile_numbered {limits : Limits} {p : Pattern} {dfa : Dfa}
    (compiled : p.compile limits = .ok dfa) :
    ∃ n, p.toNfa limits = .ok n ∧ dfa.start = 0 ∧
      (∀ i state, dfa.state? i = some state →
        state.id = i ∧ state.members ≠ ∅ ∧ n.Closed state.members ∧
        (state.accepting = true ↔ n.accept ∈ state.members) ∧
        (∀ (token : Token) (target : Nat), state.transitions[token]? = some target →
          target < dfa.size) ∧
        (∀ j other, dfa.state? j = some other → other.members = state.members → j = i) ∧
        ∃ word, dfa.run? dfa.start word = some i) ∧
      (∀ word, ((dfa.run? dfa.start word).isSome = true ↔ n.run word ≠ ∅) ∧
        ∀ i, dfa.run? dfa.start word = some i →
          ∃ state, dfa.state? i = some state ∧ state.members = n.run word) ∧
      ∃ word : Nat → List Token,
        (∀ i < dfa.size, dfa.LeastWord (word i) i) ∧
        ∀ i < dfa.size, ∀ j < dfa.size, i < j ↔ WordBefore (word i) (word j) := by
  obtain ⟨n, built, determinized⟩ := bind_eq_ok compiled
  have simulates := (Nfa.determinize_simulates determinized).1
  have search := Nfa.determinize_breadthFirst determinized
  refine ⟨n, built, simulates.start_eq, ?_, ?_, Dfa.exists_leastWords search simulates.start_eq⟩
  · intro i state found
    obtain ⟨somewhere, word, members⟩ := simulates.reached i state found
    have closed : n.Closed state.members := by
      rw [← members]
      exact Nfa.closed_run word
    have accepting : state.accepting = true ↔ n.accept ∈ state.members := by
      rw [simulates.accepting i state found, Std.ExtTreeSet.contains_iff_mem]
    refine ⟨simulates.id_eq i state found, somewhere, closed, accepting, ?_, ?_,
      simulates.run_to found⟩
    · intro token target entry
      exact search.bounded i token target ((Dfa.next?_eq found token).trans entry)
    · intro j other foundToo same
      exact simulates.distinct j i other state foundToo found same
  · intro word
    exact ⟨simulates.run_isSome word, fun i run => simulates.state_of_run run⟩

theorem session_numbered : ∃ (dfa : Dfa) (word : Nat → List Token),
    session.compile .standard = .ok dfa ∧ 3 < dfa.size ∧
    dfa.run? dfa.start ["open", "close"] = some 2 ∧ dfa.run? dfa.start ["open", "read"] = some 3 ∧
    dfa.LeastWord (word 2) 2 ∧ dfa.LeastWord (word 3) 3 ∧ WordBefore (word 2) (word 3) := by
  have reads : (session.compile .standard).toOption.any fun dfa =>
      3 < dfa.size && dfa.run? dfa.start ["open", "close"] = some 2 &&
        dfa.run? dfa.start ["open", "read"] = some 3 := by
    decide +kernel
  obtain ⟨dfa, compiled, ready⟩ := exists_eq_ok reads
  simp only [Bool.and_eq_true, decide_eq_true_eq] at ready
  obtain ⟨⟨size, closed⟩, read⟩ := ready
  obtain ⟨_, _, _, _, _, word, least, ordered⟩ := compile_numbered compiled
  have before := (ordered 2 (by omega) 3 size).mp (by omega)
  exact ⟨dfa, word, compiled, size, closed, read, least 2 (by omega), least 3 size, before⟩

end Pattern

end CallOrder
