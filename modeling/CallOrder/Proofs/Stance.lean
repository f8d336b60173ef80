import CallOrder.Proofs.Walk

/-!
A walk as a machine that reads one call after the other. Main statement: where a walk by any
automaton stands at the end, and what it finds on the way, is exact.
-/

namespace CallOrder

namespace Stance

def leave (dfa : Dfa) (state : Nat) (token : Token) : Stance :=
  match dfa.next? state token with
  | some next => .at next
  | none => .rejected state

/-- Reads the next call. After a call that could not be read, everything is passed over. -/
def read (dfa : Dfa) : Stance → Token → Stance
  | .notStarted, token => leave dfa dfa.start token
  | .at state, token => leave dfa state token
  | .rejected state, _ => .rejected state

variable {dfa : Dfa}

@[simp]
theorem read_notStarted (token : Token) :
    read dfa .notStarted token = read dfa (.at dfa.start) token := rfl

@[simp]
theorem read_rejected (state : Nat) (token : Token) :
    read dfa (.rejected state) token = .rejected state := rfl

theorem read_at_of_some {state next : Nat} {token : Token}
    (step : dfa.next? state token = some next) : read dfa (.at state) token = .at next := by
  rw [read, leave, step]

theorem read_at_of_none {state : Nat} {token : Token} (missing : dfa.next? state token = none) :
    read dfa (.at state) token = .rejected state := by
  rw [read, leave, missing]

@[simp]
theorem foldl_read_rejected (state : Nat) (tokens : List Token) :
    tokens.foldl (read dfa) (.rejected state) = .rejected state := by
  induction tokens with
  | nil => rfl
  | cons token tokens ih => exact ih

theorem foldl_read_of_run {i j : Nat} {tokens : List Token} (run : dfa.run? i tokens = some j) :
    tokens.foldl (read dfa) (.at i) = .at j := by
  induction tokens generalizing i with
  | nil =>
      cases run
      rfl
  | cons token tokens ih =>
      obtain ⟨next, step, rest⟩ := Option.bind_eq_some_iff.mp run
      rw [List.foldl_cons, read_at_of_some step, ih rest]

end Stance

namespace Walk

variable {dfa : Dfa} {step : TraceStep} {i state : Nat} {steps : List TraceStep}

/-- The step of number `k` is where reading stops: the steps before it lead from `i` to `state`, in
which it cannot be read. There is at most one such step. -/
structure StopsAt (dfa : Dfa) (i : Nat) (steps : List TraceStep) (k : Nat) (step : TraceStep)
    (state : Nat) : Prop where
  here : steps[k]? = some step
  before : dfa.run? i ((steps.map (·.token)).take k) = some state
  missing : dfa.next? state step.token = none

theorem firstMissing?_eq_some_iff :
    firstMissing? dfa i steps = some (step, state) ↔
      ∃ k, StopsAt dfa i steps k step state := by
  -- over the steps still to be read, which are numbered from the first of them on
  induction steps generalizing i with
  | nil =>
      constructor
      · rintro ⟨⟩
      · rintro ⟨k, ⟨⟩, _⟩
  | cons first steps ih =>
      rw [firstMissing?]
      cases next : dfa.next? i first.token with
      | none =>
          constructor
          · rintro ⟨⟩
            exact ⟨0, rfl, rfl, next⟩
          · rintro ⟨k, here, before, missing⟩
            cases k with
            | zero =>
                cases here
                cases before
                rfl
            | succ k => simp [Dfa.run?, next] at before
      | some j =>
          dsimp only
          rw [ih]
          constructor
          · rintro ⟨k, here, before, missing⟩
            exact ⟨k + 1, here, by simpa [Dfa.run?, next] using before, missing⟩
          · rintro ⟨k, here, before, missing⟩
            cases k with
            | zero =>
                cases here
                cases before
                rw [next] at missing
                cases missing
            | succ k => exact ⟨k, here, by simpa [Dfa.run?, next] using before, missing⟩

theorem StopsAt.append {k : Nat} (stops : StopsAt dfa i steps k step state)
    (more : List TraceStep) : StopsAt dfa i (steps ++ more) k step state := by
  have inside : k < steps.length := (List.getElem?_eq_some_iff.mp stops.here).1
  constructor
  · rw [List.getElem?_append_left inside, stops.here]
  · rw [List.map_append, List.take_append_of_le_length (by simpa using inside.le), stops.before]
  · exact stops.missing

theorem run_or_stops (dfa : Dfa) (i : Nat) (steps : List TraceStep) :
    (∃ state, dfa.run? i (steps.map (·.token)) = some state) ∨
      ∃ k step state, StopsAt dfa i steps k step state := by
  cases first : firstMissing? dfa i steps with
  | none =>
      have read := (firstMissing?_eq_none_iff i steps).mp first
      exact Or.inl (Option.isSome_iff_exists.mp read)
  | some stop =>
      obtain ⟨k, stops⟩ := firstMissing?_eq_some_iff.mp first
      exact Or.inr ⟨k, stop.1, stop.2, stops⟩

theorem StopsAt.foldl_read {k : Nat} (stops : StopsAt dfa i steps k step state) :
    (steps.map (·.token)).foldl (Stance.read dfa) (.at i) = .rejected state := by
  have here : (steps.map (·.token))[k]? = some step.token := by simp [stops.here]
  obtain ⟨inside, same⟩ := List.getElem?_eq_some_iff.mp here
  calc
    _ = ((steps.map (·.token)).drop k).foldl (Stance.read dfa) (.at state) := by
      conv_lhs => rw [← List.take_append_drop k (steps.map (·.token))]
      rw [List.foldl_append, Stance.foldl_read_of_run stops.before]
    _ = ((steps.map (·.token)).drop (k + 1)).foldl (Stance.read dfa) (.rejected state) := by
      rw [List.drop_eq_getElem_cons inside, same, List.foldl_cons,
        Stance.read_at_of_none stops.missing]
    _ = .rejected state := Stance.foldl_read_rejected state _

section Trace

variable {rule : Rule} {reportPassing : Bool} {arena : Arena} {trace : Trace} {last : TraceStep}

theorem walk_of_nil (empty : trace.steps = []) :
    dfa.walk rule reportPassing arena trace =
      ⟨trace.base, .notStarted, trace.steps.length, false, []⟩ := by
  rw [Dfa.walk, empty]
  rfl

theorem walk_of_stopsAt {k : Nat} (stops : StopsAt dfa dfa.start trace.steps k step state) :
    dfa.walk rule reportPassing arena trace =
      ⟨trace.base, .rejected state, trace.steps.length, false,
        [missingTransition dfa rule arena trace step state]⟩ := by
  have first := firstMissing?_eq_some_iff.mpr ⟨k, stops⟩
  rw [Dfa.walk]
  cases ending : trace.steps.getLast? with
  | none => simp [List.getLast?_eq_none_iff.mp ending, firstMissing?] at first
  | some last => rw [first]

theorem stance_walk (dfa : Dfa) (rule : Rule) (reportPassing : Bool) (arena : Arena)
    (trace : Trace) :
    (dfa.walk rule reportPassing arena trace).stance =
      trace.tokens.foldl (Stance.read dfa) .notStarted := by
  cases ending : trace.steps.getLast? with
  | none =>
      have empty := List.getLast?_eq_none_iff.mp ending
      rw [walk_of_nil empty, Trace.tokens, empty]
      rfl
  | some last =>
      have entered : trace.tokens.foldl (Stance.read dfa) .notStarted =
          trace.tokens.foldl (Stance.read dfa) (.at dfa.start) := by
        obtain ⟨base, steps⟩ := trace
        cases steps with
        | nil => cases ending
        | cons first steps => rfl
      rw [entered]
      rcases run_or_stops dfa dfa.start trace.steps with ⟨state, run⟩ | ⟨k, step, state, stops⟩
      · rw [walk_of_run ending run, Trace.tokens, Stance.foldl_read_of_run run]
      · rw [walk_of_stopsAt stops, Trace.tokens, stops.foldl_read]

theorem exists_stopsAt
    (rejected : (dfa.walk rule reportPassing arena trace).stance = .rejected state) :
    ∃ k step, StopsAt dfa dfa.start trace.steps k step state := by
  cases ending : trace.steps.getLast? with
  | none =>
      rw [walk_of_nil (List.getLast?_eq_none_iff.mp ending)] at rejected
      cases rejected
  | some last =>
      rcases run_or_stops dfa dfa.start trace.steps with ⟨other, run⟩ | ⟨k, step, other, stops⟩
      · rw [walk_of_run ending run] at rejected
        cases rejected
      · rw [walk_of_stopsAt stops] at rejected
        cases rejected
        exact ⟨k, step, stops⟩

theorem walk_base_consumed (dfa : Dfa) (rule : Rule) (reportPassing : Bool) (arena : Arena)
    (trace : Trace) :
    (dfa.walk rule reportPassing arena trace).base = trace.base ∧
      (dfa.walk rule reportPassing arena trace).consumed = trace.steps.length := by
  rw [Dfa.walk]
  cases trace.steps.getLast? with
  | none => exact ⟨rfl, rfl⟩
  | some last => cases firstMissing? dfa dfa.start trace.steps <;> exact ⟨rfl, rfl⟩

def found (rule : Rule) (trace : Trace) (step : TraceStep) (kind : FindingKind)
    (violation : Option Violation) (expectedNext : List String) (message : String) : Finding where
  kind := kind
  violation := violation
  rule := rule.name
  severity := rule.severity
  message := message
  location := some step.occurrence
  base := some trace.base
  expectedNext := expectedNext
  related := trace.occurrences.filter (· ≠ step.occurrence)

theorem others_eq (trace : Trace) (id : OccurrenceId) :
    trace.others id = trace.occurrences.filter (· ≠ id) := by
  simp [Trace.others, bne, beq_eq_decide]

theorem missingTransition_eq (dfa : Dfa) (rule : Rule) (arena : Arena) (trace : Trace)
    (step : TraceStep) (state : Nat) :
    ∃ message, missingTransition dfa rule arena trace step state =
      found rule trace step .fail (some .missingTransition) (dfa.expectedNext state) message := by
  simp only [found, ← others_eq]
  exact ⟨_, rfl⟩

theorem notTerminated_eq (dfa : Dfa) (rule : Rule) (trace : Trace) (last : TraceStep)
    (state : Nat) :
    ∃ message, notTerminated dfa rule trace last state =
      found rule trace last .fail (some .nonAcceptingTermination) (dfa.expectedNext state)
        message := by
  simp only [found, ← others_eq]
  exact ⟨_, rfl⟩

theorem passed_eq (rule : Rule) (trace : Trace) (last : TraceStep) :
    ∃ message, passed rule trace last = found rule trace last .pass none [] message := by
  simp only [found, ← others_eq]
  exact ⟨_, rfl⟩

end Trace

/-- What a walk along `trace` comes to. -/
structure Exact (dfa : Dfa) (rule : Rule) (reportPassing : Bool) (trace : Trace) (walk : Walk) :
    Prop where
  base : walk.base = trace.base
  consumed : walk.consumed = trace.steps.length
  stance : walk.stance = trace.tokens.foldl (Stance.read dfa) .notStarted
  empty : trace.steps = [] →
    walk.stance = .notStarted ∧ walk.accepted = false ∧ walk.findings = []
  stopped : ∀ k step state, StopsAt dfa dfa.start trace.steps k step state →
    walk.stance = .rejected state ∧ walk.accepted = false ∧
    ∃ message, walk.findings =
      [found rule trace step .fail (some .missingTransition) (dfa.expectedNext state) message]
  finished : (∀ k step state, ¬ StopsAt dfa dfa.start trace.steps k step state) →
    ∀ last, trace.steps.getLast? = some last →
      walk.accepted = dfa.accepts trace.tokens ∧
      ∃ state message, dfa.run? dfa.start trace.tokens = some state ∧ walk.stance = .at state ∧
        walk.findings =
          if dfa.accepts trace.tokens then
            if reportPassing then [found rule trace last .pass none [] message] else []
          else [found rule trace last .fail (some .nonAcceptingTermination)
            (dfa.expectedNext state) message]

theorem exact (dfa : Dfa) (rule : Rule) (reportPassing : Bool) (arena : Arena) (trace : Trace) :
    Exact dfa rule reportPassing trace (dfa.walk rule reportPassing arena trace) where
  base := (walk_base_consumed dfa rule reportPassing arena trace).1
  consumed := (walk_base_consumed dfa rule reportPassing arena trace).2
  stance := stance_walk dfa rule reportPassing arena trace
  empty := by
    intro empty
    rw [walk_of_nil empty]
    exact ⟨rfl, rfl, rfl⟩
  stopped := by
    intro k step state stops
    obtain ⟨message, same⟩ := missingTransition_eq dfa rule arena trace step state
    rw [walk_of_stopsAt stops, same]
    exact ⟨rfl, rfl, message, rfl⟩
  finished := by
    intro never last ending
    obtain ⟨state, run⟩ : ∃ state, dfa.run? dfa.start trace.tokens = some state :=
      (run_or_stops dfa dfa.start trace.steps).resolve_right (by simpa using never)
    have accepts : dfa.accepts trace.tokens = dfa.isAccepting state := by
      rw [Dfa.accepts, run, Option.any_some]
    rw [walk_of_run ending run, accepts, conclusion]
    refine ⟨rfl, state, ?_⟩
    cases dfa.isAccepting state with
    | true =>
        obtain ⟨message, same⟩ := passed_eq rule trace last
        exact ⟨message, run, rfl, by rw [same]; rfl⟩
    | false =>
        obtain ⟨message, same⟩ := notTerminated_eq dfa rule trace last state
        exact ⟨message, run, rfl, by rw [same]; rfl⟩

end Walk

/-- Whatever the automaton, a walk stops at the first call that cannot be read where it stands and
finds that, or ends with the last call and finds whether the calls may end there. Calls after the
one at which it stops change nothing but what it names besides. -/
theorem walk_exact (dfa : Dfa) (rule : Rule) (reportPassing : Bool) (arena : Arena)
    (trace : Trace) :
    (dfa.walk rule reportPassing arena trace).Exact dfa rule reportPassing trace ∧
    ∀ state, (dfa.walk rule reportPassing arena trace).stance = .rejected state →
      ∀ more : List TraceStep,
        (dfa.walk rule reportPassing arena ⟨trace.base, trace.steps ++ more⟩).stance =
          .rejected state ∧
        ∃ related, (dfa.walk rule reportPassing arena ⟨trace.base, trace.steps ++ more⟩).findings =
          (dfa.walk rule reportPassing arena trace).findings.map ({ · with related }) := by
  constructor
  · exact Walk.exact dfa rule reportPassing arena trace
  · intro state rejected more
    obtain ⟨k, step, stops⟩ := Walk.exists_stopsAt rejected
    have stopsToo : Walk.StopsAt dfa dfa.start
        (Trace.mk trace.base (trace.steps ++ more)).steps k step state := stops.append more
    rw [Walk.walk_of_stopsAt stops, Walk.walk_of_stopsAt stopsToo]
    exact ⟨rfl, _, rfl⟩

def dangling : Dfa := ⟨#[⟨3, ∅, false, .ofList [("open", 9)]⟩], 0, ∅⟩

def stutter : Trace := ⟨"f", [⟨4, "open", 0⟩, ⟨4, "open", 0⟩, ⟨2, "close", 1⟩]⟩

theorem dangling_walk :
    (dangling.walk .unnamed true .empty stutter).stance = .rejected 9 ∧
    (∃ message, (dangling.walk .unnamed true .empty stutter).findings =
      [Walk.found .unnamed stutter ⟨4, "open", 0⟩ .fail (some .missingTransition) [] message]) ∧
    (Walk.found .unnamed stutter ⟨4, "open", 0⟩ .fail (some .missingTransition) [] "").related =
      [2] ∧
    (dangling.walk .unnamed true .empty ⟨"f", stutter.steps ++ [⟨5, "open", 2⟩]⟩).stance =
      .rejected 9 := by
  obtain ⟨exact, longer⟩ := walk_exact dangling .unnamed true .empty stutter
  have stops : Walk.StopsAt dangling dangling.start stutter.steps 1 ⟨4, "open", 0⟩ 9 :=
    ⟨by decide +kernel, by decide +kernel, by decide +kernel⟩
  obtain ⟨rejected, _, message, findings⟩ := exact.stopped _ _ _ stops
  have nothing : dangling.expectedNext 9 = [] := by decide +kernel
  rw [nothing] at findings
  exact ⟨rejected, ⟨message, findings⟩, by decide +kernel, (longer 9 rejected _).1⟩

end CallOrder
