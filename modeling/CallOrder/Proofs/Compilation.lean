import CallOrder.Compilation
import CallOrder.Proofs.Automaton.Dfa
import CallOrder.Proofs.Automaton.Subset
import CallOrder.Proofs.Automaton.Thompson

/-! What a compiled pattern accepts, and what it says may come next. -/

namespace CallOrder

namespace Pattern

variable {limits : Limits} {p : Pattern} {n : Nfa} {dfa : Dfa} {word : List Token}

theorem compile_ok (compiled : p.compile limits = .ok dfa) :
    ∃ n, p.toNfa limits = .ok n ∧ dfa.Simulates n ∧ dfa.bases = p.bases := by
  obtain ⟨n, built, rest⟩ := bind_eq_ok compiled
  exact ⟨n, built, Nfa.determinize_simulates rest⟩

theorem accepts_toNfa_iff (built : p.toNfa limits = .ok n) (word : List Token) :
    n.accepts word = true ↔ word ∈ p.words := by
  rw [Nfa.accepts_iff_reads, ← Nfa.mem_wordsTo, ← (toNfa_spans built).exact]

theorem run_toNfa_ne_empty_iff (built : p.toNfa limits = .ok n) (word : List Token) :
    n.run word ≠ ∅ ↔ p.Begins word := by
  have spans := toNfa_spans built
  constructor
  · intro somewhere
    obtain ⟨state, reached⟩ : ∃ state, state ∈ n.run word := by
      by_contra nothing
      exact somewhere (Std.ExtTreeSet.eq_empty_iff_forall_not_mem.mpr (not_exists.mp nothing))
    have front : n.Reads n.start word state := Nfa.mem_run.mp reached
    obtain ⟨rest, back⟩ := spans.reads_to (front.inside spans.closed spans.start_mem)
    refine ⟨rest, ?_⟩
    rw [← spans.exact]
    exact front.append back
  · intro given nowhere
    rcases given with ⟨rest, member⟩
    rw [← spans.exact] at member
    obtain ⟨state, front, _⟩ := Nfa.Reads.append_iff.mp member
    have reached : state ∈ n.run word := Nfa.mem_run.mpr front
    rw [nowhere] at reached
    exact Std.ExtTreeSet.not_mem_empty reached

theorem run_isSome_iff (compiled : p.compile limits = .ok dfa) (word : List Token) :
    (dfa.run? dfa.start word).isSome = true ↔ p.Begins word := by
  obtain ⟨n, built, simulates, _⟩ := compile_ok compiled
  rw [simulates.run_isSome, run_toNfa_ne_empty_iff built]

theorem accepts_compile_iff (compiled : p.compile limits = .ok dfa) (word : List Token) :
    dfa.accepts word = true ↔ word ∈ p.words := by
  obtain ⟨n, built, simulates, _⟩ := compile_ok compiled
  rw [simulates.accepts_eq, accepts_toNfa_iff built]

theorem isAccepting_iff (compiled : p.compile limits = .ok dfa) {i : Nat}
    (run : dfa.run? dfa.start word = some i) : dfa.isAccepting i = true ↔ word ∈ p.words := by
  rw [← accepts_compile_iff compiled, Dfa.accepts, run, Option.any_some]

theorem mem_transitions_iff (compiled : p.compile limits = .ok dfa) {i : Nat} {state : Dfa.State}
    (run : dfa.run? dfa.start word = some i) (found : dfa.state? i = some state) (token : Token) :
    token ∈ state.transitions ↔ p.Begins (word ++ [token]) := by
  rw [← run_isSome_iff compiled, Dfa.run?_append, run, Option.bind_some, Dfa.run?_singleton,
    Dfa.next?_eq found, Std.ExtTreeMap.mem_iff_isSome_getElem?]

theorem expectedNext_offers (compiled : p.compile limits = .ok dfa) {i : Nat}
    (run : dfa.run? dfa.start word = some i) :
    Dfa.Offers {token | p.Begins (word ++ [token])} (word ∈ p.words) (dfa.expectedNext i) := by
  obtain ⟨n, _, simulates, _⟩ := compile_ok compiled
  obtain ⟨state, found, _⟩ := simulates.state_of_run run
  have tokens : {token | token ∈ state.transitions} = {token | p.Begins (word ++ [token])} :=
    Set.ext (mem_transitions_iff compiled run found)
  have ends : (state.accepting = true) = (word ∈ p.words) := by
    rw [← isAccepting_iff compiled run, Dfa.isAccepting, found, Option.any_some]
  rw [← tokens, ← ends]
  exact Dfa.expectedNext_offers found

theorem completes (compiled : p.compile limits = .ok dfa) {i : Nat} (present : i < dfa.size) :
    ∃ rest last, dfa.run? i rest = some last ∧ dfa.isAccepting last = true := by
  obtain ⟨n, _, simulates, _⟩ := compile_ok compiled
  obtain ⟨word, run⟩ := simulates.run_to (Array.getElem?_eq_getElem present)
  have defined : (dfa.run? dfa.start word).isSome = true := by rw [run, Option.isSome_some]
  obtain ⟨rest, member⟩ := (run_isSome_iff compiled word).mp defined
  rw [← accepts_compile_iff compiled, Dfa.accepts, Dfa.run?_append, run, Option.bind_some,
    Option.any_eq_true] at member
  obtain ⟨last, further, accepting⟩ := member
  exact ⟨rest, last, further, accepting⟩

/-- Both automata of a pattern, where they can be built, accept exactly its words. -/
theorem automata_accept_words (limits : Limits) (p : Pattern) (word : List Token) :
    (∀ n, p.toNfa limits = .ok n → (n.accepts word = true ↔ word ∈ p.words)) ∧
    (∀ dfa, p.compile limits = .ok dfa → (dfa.accepts word = true ↔ word ∈ p.words)) :=
  ⟨fun _ built => accepts_toNfa_iff built word, fun _ compiled => accepts_compile_iff compiled word⟩

/-- A file is opened, read any number of times, and closed. -/
def session : Pattern :=
  .sequence (.sequence (.terminal "file" "open")
    (.quantified (.terminal "file" "read") .atLeast (some (.count 0)))) (.terminal "file" "close")

theorem session_accepted : ∃ n dfa, session.toNfa .standard = .ok n ∧
    session.compile .standard = .ok dfa ∧ n.accepts ["open", "read", "close"] = true ∧
    dfa.accepts ["open", "read", "close"] = true ∧ ["open", "read", "close"] ∈ session.words := by
  have reads : (session.toNfa .standard).toOption.any (·.accepts ["open", "read", "close"]) := by
    decide +kernel
  have compiles : (session.compile .standard).toOption.any (0 < ·.size) := by decide +kernel
  obtain ⟨n, built, accepted⟩ := exists_eq_ok reads
  obtain ⟨dfa, compiled, _⟩ := exists_eq_ok compiles
  obtain ⟨nfaWords, dfaWords⟩ := automata_accept_words .standard session ["open", "read", "close"]
  have member := (nfaWords n built).mp accepted
  exact ⟨n, dfa, built, compiled, accepted, (dfaWords dfa compiled).mpr member, member⟩

/-- A compiled automaton reads a word as far as the pattern can still be fulfilled, and each state
on the way knows exactly what may follow. -/
theorem compile_diagnoses (compiled : p.compile limits = .ok dfa) :
    (∀ word, (dfa.run? dfa.start word).isSome = true ↔ p.Begins word) ∧
    (∀ word i, dfa.run? dfa.start word = some i →
      ∃ state, dfa.state? i = some state ∧
        (∀ token, token ∈ state.transitions ↔ p.Begins (word ++ [token])) ∧
        (dfa.isAccepting i = true ↔ word ∈ p.words) ∧
        Dfa.Offers {token | p.Begins (word ++ [token])} (word ∈ p.words) (dfa.expectedNext i) ∧
        ∀ entry ∈ dfa.expectedNext i, entry = Dfa.endMark ∧ dfa.accepts word = true ∨
          ∃ rest, dfa.accepts (word ++ entry :: rest) = true) ∧
    (∀ i < dfa.size, ∃ rest last, dfa.run? i rest = some last ∧ dfa.isAccepting last = true) := by
  refine ⟨run_isSome_iff compiled, ?_, fun i present => completes compiled present⟩
  intro word i run
  obtain ⟨n, _, simulates, _⟩ := compile_ok compiled
  obtain ⟨state, found, _⟩ := simulates.state_of_run run
  have offers := expectedNext_offers compiled run
  refine ⟨state, found, mem_transitions_iff compiled run found, isAccepting_iff compiled run,
    offers, ?_⟩
  intro entry offered
  rcases offers.mem_cases offered with ⟨mark, member⟩ | ⟨rest, member⟩
  · exact Or.inl ⟨mark, (accepts_compile_iff compiled word).mpr member⟩
  · refine Or.inr ⟨rest, (accepts_compile_iff compiled _).mpr ?_⟩
    rwa [List.append_assoc] at member

theorem session_diagnosed : ∃ dfa i, session.compile .standard = .ok dfa ∧
    dfa.run? dfa.start ["open", "read"] = some i ∧ dfa.expectedNext i = ["close", "read"] ∧
    Dfa.Offers {token | session.Begins ["open", "read", token]} (["open", "read"] ∈ session.words)
      ["close", "read"] := by
  have reads : (session.compile .standard).toOption.any fun dfa =>
      (dfa.run? dfa.start ["open", "read"]).any (dfa.expectedNext · = ["close", "read"]) := by
    decide +kernel
  obtain ⟨dfa, compiled, ready⟩ := exists_eq_ok reads
  obtain ⟨i, run, expected⟩ := (Option.any_eq_true _ _).mp ready
  obtain ⟨_, states, _⟩ := compile_diagnoses compiled
  obtain ⟨_, _, _, _, offers, _⟩ := states ["open", "read"] i run
  have list := of_decide_eq_true expected
  exact ⟨dfa, i, compiled, run, list, list ▸ offers⟩

end Pattern

end CallOrder
