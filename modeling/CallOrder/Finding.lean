import CallOrder.Occurrence
import CallOrder.Rule

/-!
Findings: what a rule has to say about one place of a program, and the verdict they add up to.
-/

namespace CallOrder

inductive FindingKind where
  | fail
  | pass
  | undecided
  | notApplicable
  deriving DecidableEq, Repr

inductive Violation where
  /-- A call that the automaton cannot read where it stands. -/
  | missingTransition
  /-- Calls that end too early. -/
  | nonAcceptingTermination
  | unfollowedOccurrence
  | unprecededOccurrence
  /-- A call of a listed target with arguments that are not listed. -/
  | disallowedSignature
  | forbiddenCall
  deriving DecidableEq, Repr

structure Finding where
  kind : FindingKind
  /-- What is violated, in a failure. -/
  violation : Option Violation
  rule : String
  severity : Severity
  message : String
  location : Option OccurrenceId
  base : Option Base
  /-- What could have come next, in increasing order. -/
  expectedNext : List String
  related : List OccurrenceId
  deriving DecidableEq, Repr

structure Verdict where
  outcome : Bool
  findings : List Finding
  deriving DecidableEq, Repr

def FindingKind.text : FindingKind → String
  | fail => "FAIL"
  | pass => "PASS"
  | undecided => "OPEN"
  | notApplicable => "NOT_APPLICABLE"

def Violation.text : Violation → String
  | missingTransition => "Missing Transition"
  | nonAcceptingTermination => "Non-Accepting Termination"
  | unfollowedOccurrence => "Unfollowed Occurrence"
  | unprecededOccurrence => "Unpreceded Occurrence"
  | disallowedSignature => "Disallowed Signature"
  | forbiddenCall => "Forbidden Call"

namespace Finding

def general (kind : FindingKind) (violation : Option Violation) (rule : Rule) (message : String) :
    Finding :=
  ⟨kind, violation, rule.name, rule.severity, message, none, none, [], []⟩

def failure (violation : Violation) (rule : Rule) (message : String) : Finding :=
  general .fail (some violation) rule message

def success (rule : Rule) (message : String) : Finding := general .pass none rule message

def inapplicable (rule : Rule) (message : String) : Finding :=
  general .notApplicable none rule message

def isFailure (f : Finding) : Bool := f.kind == .fail

def isPass (f : Finding) : Bool := f.kind == .pass

def text (f : Finding) : String :=
  "[" ++ f.kind.text ++ "] " ++ f.rule ++ ": " ++ f.message ++ match f.location with
    | some id => " (" ++ id.text ++ ")"
    | none => ""

end Finding

namespace Verdict

/-- The rule holds where nothing fails. -/
def ofFindings (findings : List Finding) : Verdict := ⟨!findings.any (·.isFailure), findings⟩

def satisfied : Verdict := ⟨true, []⟩

def failures (v : Verdict) : List Finding := v.findings.filter (·.isFailure)

def passes (v : Verdict) : List Finding := v.findings.filter (·.isPass)

theorem outcome_ofFindings_iff (findings : List Finding) :
    (ofFindings findings).outcome = true ↔ (ofFindings findings).failures = [] := by
  rw [ofFindings, failures, Bool.not_eq_true', List.filter_eq_nil_iff, List.any_eq_false]

end Verdict

end CallOrder
