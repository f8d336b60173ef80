import CallOrder.Arena
import CallOrder.Automaton.Dfa
import CallOrder.Finding
import CallOrder.Trace

/-!
Walks: a trace read by an automaton, and what there is to say about it. Reading stops at the first
call that cannot be read; calls after it are counted but not judged.
-/

namespace CallOrder

inductive Stance where
  | notStarted
  | at (state : Nat)
  /-- A call could not be read in `state`. -/
  | rejected (state : Nat)
  deriving DecidableEq, Repr

structure Walk where
  base : Base
  stance : Stance
  consumed : Nat
  accepted : Bool
  findings : List Finding
  deriving DecidableEq, Repr

namespace Walk

def isRejected (w : Walk) : Bool :=
  match w.stance with
  | .rejected _ => true
  | _ => false

def hasFailures (w : Walk) : Bool := w.findings.any (·.isFailure)

/-- The step at which reading stops, and the state in which it does, if it stops. -/
def firstMissing? (dfa : Dfa) (state : Nat) : List TraceStep → Option (TraceStep × Nat)
  | [] => none
  | step :: steps =>
    match dfa.next? state step.token with
    | none => some (step, state)
    | some next => firstMissing? dfa next steps

def locate (trace : Trace) (id : OccurrenceId) (f : Finding) : Finding :=
  { f with location := some id, base := some trace.base, related := trace.others id }

def missingTransition (dfa : Dfa) (rule : Rule) (arena : Arena) (trace : Trace) (step : TraceStep)
    (state : Nat) : Finding :=
  let expected := dfa.expectedNext state
  let next := if expected = [Dfa.endMark] then "No other calls are allowed on this base."
    else "Expected one of: " ++ ", ".intercalate expected
  let message := "Violation against Order: \"" ++ arena.codeOf step.occurrence ++ "\". Op \"" ++
    step.token ++ "\" is not allowed. " ++ next
  let finding := Finding.failure .missingTransition rule (rule.failText message)
  locate trace step.occurrence { finding with expectedNext := expected }

def notTerminated (dfa : Dfa) (rule : Rule) (trace : Trace) (last : TraceStep) (state : Nat) :
    Finding :=
  let expected := dfa.expectedNext state
  let message := "Violation against Order: Base " ++ trace.base ++
    " is not correctly terminated. Expected one of [" ++ ", ".intercalate expected ++
    "] to follow the correct last call on this base."
  let finding := Finding.failure .nonAcceptingTermination rule (rule.failText message)
  locate trace last.occurrence { finding with expectedNext := expected }

def passed (rule : Rule) (trace : Trace) (last : TraceStep) : Finding :=
  let message := "Order validated: " ++ trace.base ++ " is used correctly."
  locate trace last.occurrence (Finding.success rule (rule.passText message))

def conclusion (dfa : Dfa) (rule : Rule) (reportPassing : Bool) (trace : Trace) (last : TraceStep)
    (state : Nat) : List Finding :=
  if dfa.isAccepting state then
    if reportPassing then [passed rule trace last] else []
  else [notTerminated dfa rule trace last state]

end Walk

/-- Reads `trace` from the start of the automaton. -/
def Dfa.walk (dfa : Dfa) (rule : Rule) (reportPassing : Bool) (arena : Arena) (trace : Trace) :
    Walk :=
  let consumed := trace.steps.length
  match trace.steps.getLast? with
  | none => ⟨trace.base, .notStarted, consumed, false, []⟩
  | some last =>
    match Walk.firstMissing? dfa dfa.start trace.steps with
    | some (step, state) =>
      ⟨trace.base, .rejected state, consumed, false,
        [Walk.missingTransition dfa rule arena trace step state]⟩
    | none =>
      let state := (dfa.run? dfa.start trace.tokens).getD dfa.start
      ⟨trace.base, .at state, consumed, dfa.isAccepting state,
        Walk.conclusion dfa rule reportPassing trace last state⟩

end CallOrder
