import CallOrder.Proofs.Compilation
import CallOrder.Walk

/-! Walks by two automata that cannot be told apart, and what a walk finds to fail. -/

namespace CallOrder

/-- Two walks that say the same, whatever the states they end in. -/
structure Walk.Agrees (first second : Walk) : Prop where
  accepted : first.accepted = second.accepted
  consumed : first.consumed = second.consumed
  isRejected : first.isRejected = second.isRejected
  findings : first.findings = second.findings

/-- Related states offer the same, and what can be read in them leads to related states. -/
structure Dfa.Alike (d e : Dfa) (related : Nat → Nat → Prop) : Prop where
  start : related d.start e.start
  accepting : ∀ i j, related i j → d.isAccepting i = e.isAccepting j
  expected : ∀ i j, related i j → d.expectedNext i = e.expectedNext j
  next : ∀ i j token, related i j → d.next? i token = none ∧ e.next? j token = none ∨
    ∃ i' j', d.next? i token = some i' ∧ e.next? j token = some j' ∧ related i' j'

namespace Dfa.Alike

variable {d e : Dfa} {related : Nat → Nat → Prop}

theorem read_cases (alike : d.Alike e related) {i j : Nat} (known : related i j)
    (steps : List TraceStep) :
    (∃ step i' j', Walk.firstMissing? d i steps = some (step, i') ∧
      Walk.firstMissing? e j steps = some (step, j') ∧ related i' j') ∨
    Walk.firstMissing? d i steps = none ∧ Walk.firstMissing? e j steps = none ∧
      ∃ i' j', d.run? i (steps.map (·.token)) = some i' ∧
        e.run? j (steps.map (·.token)) = some j' ∧ related i' j' := by
  -- over the calls still to be read, from any two related states
  induction steps generalizing i j with
  | nil => exact Or.inr ⟨rfl, rfl, i, j, rfl, rfl, known⟩
  | cons step steps ih =>
      rw [Walk.firstMissing?, Walk.firstMissing?, List.map_cons, run?, run?]
      rcases alike.next i j step.token known with
        ⟨missing, missingToo⟩ | ⟨i', j', next, nextToo, on⟩
      · rw [missing, missingToo]
        exact Or.inl ⟨step, i, j, rfl, rfl, known⟩
      · rw [next, nextToo]
        exact ih on

theorem walk_agrees (alike : d.Alike e related) (rule : Rule) (reportPassing : Bool) (arena : Arena)
    (trace : Trace) :
    (d.walk rule reportPassing arena trace).Agrees (e.walk rule reportPassing arena trace) := by
  rw [walk, walk]
  cases trace.steps.getLast? with
  | none => exact ⟨rfl, rfl, rfl, rfl⟩
  | some last =>
      rcases alike.read_cases alike.start trace.steps with
        ⟨step, i, j, missing, missingToo, known⟩ | ⟨all, allToo, i, j, run, runToo, known⟩
      · rw [missing, missingToo]
        refine ⟨rfl, rfl, rfl, ?_⟩
        simp only [Walk.missingTransition, alike.expected i j known]
      · rw [all, allToo, Trace.tokens, run, runToo]
        refine ⟨alike.accepting i j known, rfl, rfl, ?_⟩
        simp only [Option.getD_some, Walk.conclusion, Walk.notTerminated,
          alike.accepting i j known, alike.expected i j known]

end Dfa.Alike

namespace Pattern

variable {limits limits' : Limits} {p q : Pattern} {d e : Dfa}

theorem begins_congr (same : p.words = q.words) (front : List Token) :
    p.Begins front ↔ q.Begins front := by
  rw [Begins, Begins, same]

/-- Two automata for the same words are alike: states are related that some word leads to. -/
theorem compile_alike (first : p.compile limits = .ok d) (second : q.compile limits' = .ok e)
    (same : p.words = q.words) :
    d.Alike e fun i j => ∃ word, d.run? d.start word = some i ∧ e.run? e.start word = some j := by
  refine ⟨⟨[], rfl, rfl⟩, ?_, ?_, ?_⟩
  · intro i j given
    rcases given with ⟨word, run, runToo⟩
    rw [Bool.eq_iff_iff, isAccepting_iff first run, isAccepting_iff second runToo, same]
  · intro i j given
    rcases given with ⟨word, run, runToo⟩
    have offers := expectedNext_offers first run
    simp only [begins_congr same, same] at offers
    exact offers.unique (expectedNext_offers second runToo)
  · intro i j token given
    rcases given with ⟨word, run, runToo⟩
    have on : d.run? d.start (word ++ [token]) = d.next? i token := by
      rw [Dfa.run?_append, run, Option.bind_some, Dfa.run?_singleton]
    have onToo : e.run? e.start (word ++ [token]) = e.next? j token := by
      rw [Dfa.run?_append, runToo, Option.bind_some, Dfa.run?_singleton]
    have defined : (d.next? i token).isSome = (e.next? j token).isSome := by
      rw [← on, ← onToo, Bool.eq_iff_iff, run_isSome_iff first, run_isSome_iff second,
        begins_congr same]
    cases next : d.next? i token with
    | none =>
        rw [next, Option.isSome_none, eq_comm, Option.isSome_eq_false_iff,
          Option.isNone_iff_eq_none] at defined
        exact Or.inl ⟨rfl, defined⟩
    | some i' =>
        rw [next, Option.isSome_some, eq_comm, Option.isSome_iff_exists] at defined
        obtain ⟨j', nextToo⟩ := defined
        exact Or.inr ⟨i', j', rfl, nextToo, word ++ [token], on.trans next, onToo.trans nextToo⟩

/-- What a walk says depends on the words of the pattern and not on how it is written. -/
theorem walk_agrees_of_words_eq (first : p.compile limits = .ok d)
    (second : q.compile limits' = .ok e) (same : p.words = q.words) (rule : Rule)
    (reportPassing : Bool) (arena : Arena) (trace : Trace) :
    (d.walk rule reportPassing arena trace).Agrees (e.walk rule reportPassing arena trace) :=
  (compile_alike first second same).walk_agrees rule reportPassing arena trace

def regrouped : Pattern :=
  .sequence (.terminal "file" "open")
    (.sequence (.quantified (.terminal "file" "read") .atLeast (some (.count 0)))
      (.terminal "file" "close"))

theorem session_walk_agrees : ∃ d e, session.compile .standard = .ok d ∧
    regrouped.compile ⟨20, 10, 1, 4⟩ = .ok e ∧ session.words = regrouped.words ∧
    (d.walk .unnamed true .empty ⟨"f", [⟨0, "open", 0⟩, ⟨1, "seek", 1⟩]⟩).Agrees
      (e.walk .unnamed true .empty ⟨"f", [⟨0, "open", 0⟩, ⟨1, "seek", 1⟩]⟩) := by
  have compiles : (session.compile .standard).toOption.any (0 < ·.size) := by decide +kernel
  have compilesToo : (regrouped.compile ⟨20, 10, 1, 4⟩).toOption.any (0 < ·.size) := by
    decide +kernel
  obtain ⟨d, first, _⟩ := exists_eq_ok compiles
  obtain ⟨e, second, _⟩ := exists_eq_ok compilesToo
  have same : session.words = regrouped.words := mul_assoc _ _ _
  exact ⟨d, e, first, second, same, walk_agrees_of_words_eq first second same _ _ _ _⟩

end Pattern

def Dfa.rejects (dfa : Dfa) (trace : Trace) : Bool :=
  !trace.steps.isEmpty && !dfa.accepts trace.tokens

theorem Pattern.rejects_iff {limits : Limits} {p : Pattern} {dfa : Dfa}
    (compiled : p.compile limits = .ok dfa) (trace : Trace) :
    dfa.rejects trace = true ↔ trace.steps ≠ [] ∧ trace.tokens ∉ p.words := by
  rw [Dfa.rejects, Bool.and_eq_true, Bool.not_eq_true', Bool.not_eq_true', ← Bool.not_eq_true,
    ← Bool.not_eq_true, List.isEmpty_iff, accepts_compile_iff compiled]

namespace Walk

variable {dfa : Dfa} {rule : Rule} {reportPassing : Bool} {arena : Arena} {trace : Trace}

theorem firstMissing?_eq_none_iff (i : Nat) (steps : List TraceStep) :
    firstMissing? dfa i steps = none ↔ (dfa.run? i (steps.map (·.token))).isSome = true := by
  induction steps generalizing i with
  | nil => simp [firstMissing?, Dfa.run?]
  | cons step steps ih =>
      rw [firstMissing?, List.map_cons, Dfa.run?]
      cases dfa.next? i step.token with
      | none => simp
      | some next => exact ih next

theorem findings_of_run_eq_none {last : TraceStep} (ending : trace.steps.getLast? = some last)
    (run : dfa.run? dfa.start trace.tokens = none) :
    ∃ step state, (dfa.walk rule reportPassing arena trace).findings =
      [missingTransition dfa rule arena trace step state] := by
  cases missing : firstMissing? dfa dfa.start trace.steps with
  | none =>
      have defined := (firstMissing?_eq_none_iff dfa.start trace.steps).mp missing
      rw [← Trace.tokens, run] at defined
      cases defined
  | some stop =>
      refine ⟨stop.1, stop.2, ?_⟩
      rw [Dfa.walk, ending, missing]

theorem walk_of_run {last : TraceStep} {state : Nat} (ending : trace.steps.getLast? = some last)
    (run : dfa.run? dfa.start trace.tokens = some state) :
    dfa.walk rule reportPassing arena trace =
      ⟨trace.base, .at state, trace.steps.length, dfa.isAccepting state,
        conclusion dfa rule reportPassing trace last state⟩ := by
  have read : firstMissing? dfa dfa.start trace.steps = none := by
    rw [firstMissing?_eq_none_iff, ← Trace.tokens, run, Option.isSome_some]
  rw [Dfa.walk, ending, read, run]
  rfl

theorem findings_of_run_eq_some {last : TraceStep} {state : Nat}
    (ending : trace.steps.getLast? = some last)
    (run : dfa.run? dfa.start trace.tokens = some state) :
    (dfa.walk rule reportPassing arena trace).findings =
      conclusion dfa rule reportPassing trace last state := by
  rw [walk_of_run ending run]

theorem failures_conclusion (last : TraceStep) (state : Nat) :
    ((conclusion dfa rule reportPassing trace last state).filter (·.isFailure)).map (·.base) =
      if dfa.isAccepting state then [] else [some trace.base] := by
  rw [conclusion]
  split
  · cases reportPassing with
    | true => rfl
    | false => rfl
  · rfl

theorem failures_bases (dfa : Dfa) (rule : Rule) (reportPassing : Bool) (arena : Arena)
    (trace : Trace) :
    ((dfa.walk rule reportPassing arena trace).findings.filter (·.isFailure)).map (·.base) =
      if dfa.rejects trace then [some trace.base] else [] := by
  cases ending : trace.steps.getLast? with
  | none =>
      rw [Dfa.walk, ending, Dfa.rejects, List.getLast?_eq_none_iff.mp ending]
      rfl
  | some last =>
      have calls : trace.steps.isEmpty = false :=
        List.isEmpty_eq_false_iff.mpr (List.ne_nil_of_mem (List.mem_of_getLast? ending))
      rw [Dfa.rejects, calls, Dfa.accepts]
      cases run : dfa.run? dfa.start trace.tokens with
      | none =>
          obtain ⟨step, state, findings⟩ := findings_of_run_eq_none ending run
          rw [findings]
          rfl
      | some state =>
          rw [findings_of_run_eq_some ending run, failures_conclusion, Option.any_some]
          cases dfa.isAccepting state <;> rfl

end Walk

end CallOrder
