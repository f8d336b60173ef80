import CallOrder.Json.Finding
import CallOrder.RuleDocument.Json
import CallOrder.Yaml.Content
import CallOrder.Yaml.Record

/-!
Rule documents as YAML.
-/

namespace CallOrder

open Yaml (Document Node Reading)

namespace ArgumentPattern

def ofNode? (n : Node) : Reading ArgumentPattern := do
  let (name, content) ← n.variant?
  match name, content with
  | "wildcard", content => if Node.isUnit content then return wildcard else failure
  | "value", some content => return value (← content.text?)
  | "type", some content => return type (← content.text?)
  | "one_of", some content => return oneOf (← content.list? Node.text?)
  | _, _ => failure

end ArgumentPattern

namespace Operation

def ofNode? (n : Node) : Reading Operation := do
  match ← n.record? fields with
  | [some target, signature] =>
    return ⟨← target.text?,
      ← Node.nullableField? (Node.list? ArgumentPattern.ofNode?) signature⟩
  | _ => failure

end Operation

namespace Severity

def ofNode? (n : Node) : Reading Severity := do
  let (name, content) ← n.variant?
  if Node.isUnit content then ofKey? name else failure

end Severity

namespace RuleDocument

def maxYamlDepth : Nat := 128

/-- The operations of a document. Of a token that it repeats the last operation holds. -/
def operationsOfNode? (n : Node) : Reading OperationTable := do
  return .ofList (← (← n.named?).mapM fun entry => do return (entry.1, ← Operation.ofNode? entry.2))

/-- The entries of a document, which stand two levels deep in it. -/
def entriesOfNode? (n : Node) : Reading (List Entry) := do
  let items ← n.list? (Node.toContent? (maxYamlDepth - 2))
  (items.mapM Entry.ofContent? : Option (List Entry))

def ofNode? (n : Node) : Reading RuleDocument := do
  match ← n.record? fields with
  | [some rule, some base, failMessage, passMessage, severity, operations, some order] =>
    return ⟨← rule.text?, ← base.text?, ← Node.nullableField? Node.text? failMessage,
      ← Node.nullableField? Node.text? passMessage,
      ← Node.optionalField? Severity.ofNode? .warning severity,
      ← Node.optionalField? operationsOfNode? ∅ operations,
      ← entriesOfNode? order⟩
  | _ => failure

def ofYamlText (text : String) : Except Error RuleDocument :=
  match (Document.parse? text).bind (·.read? ofNode?) with
  | some d => .ok d
  | none => .error (.document .malformed)

end RuleDocument

end CallOrder
