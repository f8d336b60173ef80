import CallOrder.Json.Finding
import CallOrder.Json.Operation
import CallOrder.Json.Reader
import CallOrder.RuleDocument.Entry

/-!
Rule documents as JSON.
-/

namespace CallOrder

namespace Form

def toJson : Form → List Json → Json
  | group, items => .object [("group", .array items)]
  | set, items => .object [("set", .array items)]
  | maybe, items => .object [("maybe", .array items)]
  | option, items => .object [("option", .array items)]
  | oneOrMore, items => .object [("some", .array items)]
  | zeroOrMore, items => .object [("zero_or_more", .array items)]
  | exactly n, items =>
    .object [("exactly", .object [("count", .natural n), ("order", .array items)])]
  | atLeast n, items =>
    .object [("at_least", .object [("count", .natural n), ("order", .array items)])]
  | between min max, items =>
    .object [("between",
      .object [("min", .natural min), ("max", .natural max), ("order", .array items)])]

end Form

namespace Entry

mutual

def toJson : Entry → Json
  | token name => .text name
  | block form entries => form.toJson (toJsons entries)

def toJsons : List Entry → List Json
  | [] => []
  | entry :: entries => entry.toJson :: toJsons entries

end

def ofJson? (j : Json) : Option Entry := do ofContent? (← j.toContent?)

end Entry

namespace RuleDocument

def toJson (d : RuleDocument) : Json :=
  .object [("rule", .text d.rule), ("base", .text d.base),
    ("fail_message", .textOrNull d.failMessage), ("pass_message", .textOrNull d.passMessage),
    ("severity", d.severity.toJson), ("operations", Json.ofMap Operation.toJson d.operations),
    ("order", .array (Entry.toJsons d.order))]

def fields : List Field :=
  [.required "rule", .required "base", .optional "fail_message", .optional "pass_message",
    .optional "severity", .optional "operations", .required "order"]

def ofJson? (j : Json) : Option RuleDocument := do
  match ← j.record? fields with
  | [some rule, some base, failMessage, passMessage, severity, operations, some order] =>
    return ⟨← rule.text?, ← base.text?, ← Json.nullableField? Json.text? failMessage,
      ← Json.nullableField? Json.text? passMessage,
      ← Json.optionalField? Severity.ofJson? .warning severity,
      ← Json.optionalField? (Json.map? Operation.ofJson?) ∅ operations,
      ← order.list? Entry.ofJson?⟩
  | _ => none

/-- Whether the order of a document nests no deeper than text may, itself one level deep. -/
def isShallow (j : Json) : Bool :=
  match j.record? fields with
  | some [_, _, _, _, _, _, some order] => order.depth < Json.maxDepth
  | _ => true

def ofJsonText (text : String) : Except Error RuleDocument :=
  match (Json.parse? text).filter isShallow |>.bind ofJson? with
  | some d => .ok d
  | none => .error (.document .malformed)

end RuleDocument

end CallOrder
