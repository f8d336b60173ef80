import CallOrder.Finding
import CallOrder.Json.Record

/-!
Rules, findings and verdicts as JSON.
-/

namespace CallOrder

namespace Severity

def key : Severity → String
  | info => "info"
  | warning => "warning"
  | error => "error"

def ofKey? : String → Option Severity
  | "info" => some info
  | "warning" => some warning
  | "error" => some error
  | _ => none

def toJson (s : Severity) : Json := .text s.key

def ofJson? (j : Json) : Option Severity := do ofKey? (← j.unitVariant?)

end Severity

namespace Rule

def toJson (r : Rule) : Json :=
  .object [("name", .text r.name), ("fail_message", .textOrNull r.failMessage),
    ("pass_message", .textOrNull r.passMessage), ("severity", r.severity.toJson)]

def fields : List Field :=
  [.required "name", .optional "fail_message", .optional "pass_message", .optional "severity"]

def ofJson? (j : Json) : Option Rule := do
  match ← j.record? fields with
  | [some name, failMessage, passMessage, severity] =>
    return ⟨← name.text?, ← Json.nullableField? Json.text? failMessage,
      ← Json.nullableField? Json.text? passMessage,
      ← Json.optionalField? Severity.ofJson? .warning severity⟩
  | _ => none

end Rule

namespace FindingKind

def key : FindingKind → String
  | fail => "fail"
  | pass => "pass"
  | undecided => "open"
  | notApplicable => "not_applicable"

def toJson (k : FindingKind) : Json := .text k.key

def ofJson? (j : Json) : Option FindingKind := do
  match ← j.unitVariant? with
  | "fail" => some fail
  | "pass" => some pass
  | "open" => some undecided
  | "not_applicable" => some notApplicable
  | _ => none

end FindingKind

namespace Violation

def key : Violation → String
  | missingTransition => "missing_transition"
  | nonAcceptingTermination => "non_accepting_termination"
  | unfollowedOccurrence => "unfollowed_occurrence"
  | unprecededOccurrence => "unpreceded_occurrence"
  | disallowedSignature => "disallowed_signature"
  | forbiddenCall => "forbidden_call"

def toJson (v : Violation) : Json := .text v.key

def ofJson? (j : Json) : Option Violation := do
  match ← j.unitVariant? with
  | "missing_transition" => some missingTransition
  | "non_accepting_termination" => some nonAcceptingTermination
  | "unfollowed_occurrence" => some unfollowedOccurrence
  | "unpreceded_occurrence" => some unprecededOccurrence
  | "disallowed_signature" => some disallowedSignature
  | "forbidden_call" => some forbiddenCall
  | _ => none

def jsonOrNull : Option Violation → Json
  | some v => v.toJson
  | none => .null

end Violation

namespace Finding

def jsonEntries (f : Finding) : List (String × Json) :=
  [("kind", f.kind.toJson), ("violation", Violation.jsonOrNull f.violation),
    ("rule", .text f.rule), ("severity", f.severity.toJson), ("message", .text f.message),
    ("location", .naturalOrNull f.location), ("base", .textOrNull f.base),
    ("expected_next", .texts f.expectedNext), ("related", .naturals f.related)]

def toJson (f : Finding) : Json := .object f.jsonEntries

def fields : List Field :=
  [.required "kind", .nullable "violation", .required "rule", .optional "severity",
    .required "message", .nullable "location", .nullable "base", .required "expected_next",
    .required "related"]

def ofJson? (j : Json) : Option Finding := do
  match ← j.record? fields with
  | [some kind, violation, some rule, severity, some message, location, base, some expectedNext,
      some related] =>
    return ⟨← FindingKind.ofJson? kind, ← Json.nullableField? Violation.ofJson? violation,
      ← rule.text?, ← Json.optionalField? Severity.ofJson? .warning severity, ← message.text?,
      ← Json.nullableField? Json.word? location, ← Json.nullableField? Json.text? base,
      ← expectedNext.list? Json.text?, ← related.list? Json.word?⟩
  | _ => none

end Finding

namespace Verdict

def toJson (v : Verdict) : Json :=
  .object [("outcome", .bool v.outcome), ("findings", .array (v.findings.map Finding.toJson))]

def ofJson? (j : Json) : Option Verdict := do
  match ← j.record? [.required "outcome", .required "findings"] with
  | [some outcome, some findings] => return ⟨← outcome.bool?, ← findings.list? Finding.ofJson?⟩
  | _ => none

end Verdict

end CallOrder
