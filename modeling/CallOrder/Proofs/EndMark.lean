import CallOrder.Proofs.Compilation
import CallOrder.Proofs.Stance

/-!
The end mark among the tokens that may come next. Main statement: a state tells the mark from a
token exactly if no token that is spelled like it leads on from there.
-/

namespace CallOrder

namespace Dfa

/-- Each entry of the list stands there once, by bytes, and the end mark stands there exactly where
the calls may end. -/
structure MarksEnd (mayEnd : Prop) (list : List String) : Prop where
  increasing : list.Pairwise fun s t => Text.bytes s < Text.bytes t
  mark : endMark ∈ list ↔ mayEnd

namespace Offers

variable {tokens : Set Token} {mayEnd : Prop} {list : List String}

theorem increasing_iff (offers : Offers tokens mayEnd list) :
    (list.Pairwise fun s t => Text.bytes s < Text.bytes t) ↔ list.Nodup := by
  simp only [← Text.lt_iff_bytes_lt]
  constructor
  · intro increasing
    exact increasing.imp ne_of_lt
  · intro distinct
    exact (Text.byteSorted_iff.mp offers.sorted).imp₂ (fun _ _ le ne => lt_of_le_of_ne le ne) distinct

theorem marksEnd_iff (offers : Offers tokens mayEnd list) :
    MarksEnd mayEnd list ↔ endMark ∉ tokens := by
  obtain ⟨distinct, nodup, members, ending, going⟩ := offers.entries
  by_cases ends : mayEnd
  · have listed := ending ends
    have nodup_iff : list.Nodup ↔ endMark ∉ tokens := by
      rw [listed.nodup_iff, List.nodup_cons, members, and_iff_left nodup]
    constructor
    · intro marks
      exact nodup_iff.mp (offers.increasing_iff.mp marks.increasing)
    · intro free
      have marked : endMark ∈ list := listed.mem_iff.mpr List.mem_cons_self
      exact ⟨offers.increasing_iff.mpr (nodup_iff.mpr free), iff_of_true marked ends⟩
  · have listed := going ends
    have mark_iff : endMark ∈ list ↔ endMark ∈ tokens := listed.mem_iff.trans (members endMark)
    constructor
    · intro marks spelled
      exact ends (marks.mark.mp (mark_iff.mpr spelled))
    · intro free
      have once : list.Nodup := listed.nodup_iff.mpr nodup
      exact ⟨offers.increasing_iff.mpr once, iff_of_false (mt mark_iff.mp free) ends⟩

theorem eq_mark_iff (offers : Offers tokens mayEnd list) :
    list = [endMark] ↔ mayEnd ∧ tokens = ∅ ∨ ¬ mayEnd ∧ tokens = {endMark} := by
  obtain ⟨distinct, nodup, members, ending, going⟩ := offers.entries
  by_cases ends : mayEnd
  · have alone : list = [endMark] ↔ distinct = [] := by
      rw [← List.perm_singleton, (ending ends).congr_left, List.perm_cons, List.perm_nil]
    have none : distinct = [] ↔ tokens = ∅ := by
      simp only [List.eq_nil_iff_forall_not_mem, Set.eq_empty_iff_forall_notMem, members]
    rw [alone, none]
    simp [ends]
  · have alone : list = [endMark] ↔ distinct = [endMark] := by
      rw [← List.perm_singleton, (going ends).congr_left, List.perm_singleton]
    have only : distinct = [endMark] ↔ tokens = {endMark} := by
      rw [← List.perm_singleton, List.perm_ext_iff_of_nodup nodup (List.nodup_singleton _)]
      simp only [members, List.mem_singleton, Set.ext_iff, Set.mem_singleton_iff]
    rw [alone, only]
    simp [ends]

end Offers

def State.tokens (state : State) : Set Token := {token | token ∈ state.transitions}

end Dfa

/-- The rule has no message for failures, or an empty one, which is none. -/
def Rule.Unworded (rule : Rule) : Prop := rule.failMessage = none ∨ rule.failMessage = some ""

theorem Rule.Unworded.failText_eq {rule : Rule} (unworded : rule.Unworded) (standard : String) :
    rule.failText standard = standard := by
  rcases unworded with none | empty
  · rw [failText, none, choose]
  · rw [failText, empty]
    rfl

namespace Walk

def refusal (arena : Arena) (step : TraceStep) : String :=
  "Violation against Order: \"" ++ arena.codeOf step.occurrence ++ "\". Op \"" ++ step.token ++
    "\" is not allowed. "

def nothing : String := "No other calls are allowed on this base."

def oneOf (entries : List String) : String := "Expected one of: " ++ ", ".intercalate entries

theorem nothing_ne_oneOf (entries : List String) : nothing ≠ oneOf entries := by
  intro same
  have here : nothing.toList.head? = some 'N' := by decide
  have there : (oneOf entries).toList.head? = some 'E' := by
    have start : "Expected one of: ".toList.head? = some 'E' := by decide
    exact (congrArg List.head? String.toList_append).trans (List.head?_append.trans
      (congrArg (Option.or · _) start))
  have first := here.symm.trans ((congrArg (·.toList.head?) same).trans there)
  cases first

/-- The message on a call that cannot be read says that nothing may follow if the calls may end in
this state and no token leads on, and otherwise what may follow. -/
def Explains (arena : Arena) (step : TraceStep) (state : Dfa.State) (expected : List String)
    (message : String) : Prop :=
  (state.accepting = true ∧ state.tokens = ∅ → message = refusal arena step ++ nothing) ∧
  (¬ (state.accepting = true ∧ state.tokens = ∅) → message = refusal arena step ++ oneOf expected)

variable {dfa : Dfa} {rule : Rule} {arena : Arena} {trace : Trace} {step : TraceStep} {i : Nat}
  {state : Dfa.State}

theorem message_missingTransition (unworded : rule.Unworded) :
    (missingTransition dfa rule arena trace step i).message = refusal arena step ++
      if dfa.expectedNext i = [Dfa.endMark] then nothing else oneOf (dfa.expectedNext i) :=
  unworded.failText_eq _

theorem explains_iff (found : dfa.state? i = some state) (unworded : rule.Unworded) :
    Explains arena step state (dfa.expectedNext i)
      (missingTransition dfa rule arena trace step i).message ↔
    ¬ (state.accepting = false ∧ state.tokens = {Dfa.endMark}) := by
  have alone := (Dfa.expectedNext_offers found).eq_mark_iff
  rw [message_missingTransition unworded]
  by_cases final : state.accepting = true ∧ state.tokens = ∅
  · have mark : dfa.expectedNext i = [Dfa.endMark] := alone.mpr (Or.inl final)
    rw [if_pos mark]
    exact iff_of_true ⟨fun _ => rfl, fun other => absurd final other⟩
      fun misleading => Bool.false_ne_true (misleading.1.symm.trans final.1)
  · by_cases mark : dfa.expectedNext i = [Dfa.endMark]
    · have misleading : ¬ state.accepting = true ∧ state.tokens = {Dfa.endMark} :=
        (alone.mp mark).resolve_left final
      rw [if_pos mark]
      refine iff_of_false (fun explains => ?_)
        (not_not_intro ⟨Bool.eq_false_iff.mpr misleading.1, misleading.2⟩)
      exact nothing_ne_oneOf _ (String.append_right_inj _ |>.mp (explains.2 final))
    · rw [if_neg mark]
      refine iff_of_true ⟨fun same => absurd same final, fun _ => rfl⟩ fun misleading => ?_
      exact mark (alone.mpr (Or.inr ⟨Bool.eq_false_iff.mp misleading.1, misleading.2⟩))

end Walk

namespace Pattern

variable {p : Pattern} {limits : Limits} {dfa : Dfa}

theorem endMark_not_mem_tokens_iff (compiled : p.compile limits = .ok dfa) :
    (∀ i state, dfa.state? i = some state → Dfa.endMark ∉ state.tokens) ↔
      ∀ word ∈ p.words, Dfa.endMark ∉ word := by
  obtain ⟨n, _, simulates, _⟩ := compile_ok compiled
  constructor
  · intro free word member spelled
    obtain ⟨front, back, rfl⟩ := List.append_of_mem spelled
    have begins : p.Begins front := ⟨_, member⟩
    obtain ⟨i, run⟩ := Option.isSome_iff_exists.mp ((run_isSome_iff compiled front).mpr begins)
    obtain ⟨state, found, _⟩ := simulates.state_of_run run
    apply free i state found
    refine (mem_transitions_iff compiled run found Dfa.endMark).mpr ⟨back, ?_⟩
    rwa [List.append_assoc]
  · intro free i state found leads
    obtain ⟨word, run⟩ := simulates.run_to found
    obtain ⟨rest, member⟩ := (mem_transitions_iff compiled run found Dfa.endMark).mp leads
    exact free _ member (by simp)

/-- In the automaton of a pattern, a state has the end mark exactly if it accepts, and no entry
twice, unless a token that is spelled like the mark leads on from there. The message on a call that
cannot be read there is right unless such a token is all that may follow. No state is like that
exactly if no word of the pattern has a token of that spelling. -/
theorem end_mark_told_apart (compiled : p.compile limits = .ok dfa) :
    (∀ i state, dfa.state? i = some state →
      Dfa.Offers state.tokens (state.accepting = true) (dfa.expectedNext i) ∧
      (Dfa.MarksEnd (state.accepting = true) (dfa.expectedNext i) ↔
        Dfa.endMark ∉ state.tokens)) ∧
    (∀ (rule : Rule) (reportPassing : Bool) (arena : Arena) (trace : Trace) (i : Nat),
      rule.Unworded → (dfa.walk rule reportPassing arena trace).stance = .rejected i →
      ∃ state step message, dfa.state? i = some state ∧ step ∈ trace.steps ∧
        (dfa.walk rule reportPassing arena trace).findings = [Walk.found rule trace step .fail
          (some .missingTransition) (dfa.expectedNext i) message] ∧
        (Walk.Explains arena step state (dfa.expectedNext i) message ↔
          ¬ (state.accepting = false ∧ state.tokens = {Dfa.endMark}))) ∧
    ((∀ i state, dfa.state? i = some state → Dfa.endMark ∉ state.tokens) ↔
      ∀ word ∈ p.words, Dfa.endMark ∉ word) := by
  refine ⟨?_, ?_, endMark_not_mem_tokens_iff compiled⟩
  · intro i state found
    have offers := Dfa.expectedNext_offers found
    exact ⟨offers, offers.marksEnd_iff⟩
  · intro rule reportPassing arena trace i unworded rejected
    obtain ⟨n, _, simulates, _⟩ := compile_ok compiled
    obtain ⟨k, step, stops⟩ := Walk.exists_stopsAt rejected
    obtain ⟨state, found, _⟩ := simulates.state_of_run stops.before
    obtain ⟨message, same⟩ := Walk.missingTransition_eq dfa rule arena trace step i
    have told : (Walk.missingTransition dfa rule arena trace step i).message = message := by
      rw [same, Walk.found]
    refine ⟨state, step, message, found, List.mem_of_getElem? stops.here, ?_, ?_⟩
    · rw [Walk.walk_of_stopsAt stops, same]
    · rw [← told]
      exact Walk.explains_iff found unworded

def reopened : Trace := ⟨"f", [⟨0, "open", 0⟩, ⟨1, "close", 1⟩, ⟨2, "open", 2⟩]⟩

theorem session_end_told_apart : ∃ dfa i state step message,
    session.compile .standard = .ok dfa ∧ Rule.unnamed.Unworded ∧
    (dfa.walk .unnamed false .empty reopened).stance = .rejected i ∧ dfa.state? i = some state ∧
    dfa.expectedNext i = [Dfa.endMark] ∧ Dfa.MarksEnd (state.accepting = true) [Dfa.endMark] ∧
    (dfa.walk .unnamed false .empty reopened).findings.map (·.message) = [message] ∧
    message = Walk.refusal .empty step ++ Walk.nothing := by
  have stops : (session.compile .standard).toOption.any fun dfa =>
      (dfa.walk .unnamed false .empty reopened).stance = .rejected 2 ∧
        dfa.expectedNext 2 = [Dfa.endMark] ∧
        (dfa.state? 2).all fun state => state.accepting ∧ state.transitions = ∅ := by
    decide +kernel
  obtain ⟨dfa, compiled, ready⟩ := exists_eq_ok stops
  obtain ⟨rejected, expected, final⟩ := of_decide_eq_true ready
  have unworded : Rule.unnamed.Unworded := Or.inl rfl
  obtain ⟨states, walks, _⟩ := end_mark_told_apart compiled
  obtain ⟨state, step, message, found, _, findings, explains⟩ :=
    walks .unnamed false .empty reopened 2 unworded rejected
  rw [found] at final
  obtain ⟨accepts, leaves⟩ := of_decide_eq_true final
  have free : state.tokens = ∅ := by simp [Dfa.State.tokens, leaves]
  have marks := (states 2 state found).2.mpr (by simp [free])
  rw [expected] at marks
  have explained := explains.mpr fun misleading => by simp [misleading.1] at accepts
  exact ⟨dfa, 2, state, step, message, compiled, unworded, rejected, found, expected, marks,
    by rw [findings]; rfl, explained.1 ⟨accepts, free⟩⟩

/-- The call at the end may be left out, and its token is spelled like the mark. -/
def farewell : Pattern := .quantified (.terminal "x" Dfa.endMark) .maybe none

/-- Where the calls may end there are two entries of one spelling. Where only that token may follow,
it is listed for the mark, and the message says that nothing may follow. -/
theorem end_mark_confused :
    (∃ dfa state, farewell.compile .standard = .ok dfa ∧ dfa.state? dfa.start = some state ∧
      state.accepting = true ∧ dfa.expectedNext dfa.start = [Dfa.endMark, Dfa.endMark] ∧
      ¬ Dfa.MarksEnd (state.accepting = true) (dfa.expectedNext dfa.start)) ∧
    ∃ dfa state, (terminal "x" Dfa.endMark).compile .standard = .ok dfa ∧
      dfa.state? dfa.start = some state ∧ state.accepting = false ∧
      dfa.expectedNext dfa.start = [Dfa.endMark] ∧
      dfa.next? dfa.start Dfa.endMark = some 1 ∧
      (dfa.walk .unnamed false .empty ⟨"f", [⟨0, "other", 0⟩]⟩).findings.map (·.message) =
        [Walk.refusal .empty ⟨0, "other", 0⟩ ++ Walk.nothing] := by
  constructor
  · have repeats : (farewell.compile .standard).toOption.any fun dfa =>
        (dfa.state? dfa.start).any (·.accepting) ∧
          dfa.expectedNext dfa.start = [Dfa.endMark, Dfa.endMark] := by
      decide +kernel
    obtain ⟨dfa, compiled, ready⟩ := exists_eq_ok repeats
    obtain ⟨accepting, expected⟩ := of_decide_eq_true ready
    obtain ⟨state, found, accepts⟩ := (Option.any_eq_true _ _).mp accepting
    refine ⟨dfa, state, compiled, found, accepts, expected, fun marks => ?_⟩
    have increasing := marks.increasing
    rw [expected] at increasing
    exact List.lt_irrefl _ (List.rel_of_pairwise_cons increasing List.mem_cons_self)
  · have misleads : ((terminal "x" Dfa.endMark).compile .standard).toOption.any fun dfa =>
        (dfa.state? dfa.start).any (!·.accepting) ∧
          dfa.expectedNext dfa.start = [Dfa.endMark] ∧
          dfa.next? dfa.start Dfa.endMark = some 1 ∧
          (dfa.walk .unnamed false .empty ⟨"f", [⟨0, "other", 0⟩]⟩).findings.map (·.message) =
            [Walk.refusal .empty ⟨0, "other", 0⟩ ++ Walk.nothing] := by
      decide +kernel
    obtain ⟨dfa, compiled, ready⟩ := exists_eq_ok misleads
    obtain ⟨rejecting, told⟩ := of_decide_eq_true ready
    obtain ⟨state, found, rejects⟩ := (Option.any_eq_true _ _).mp rejecting
    exact ⟨dfa, state, compiled, found, by simpa using rejects, told⟩

end Pattern

end CallOrder
