import CallOrder.Json.Record
import CallOrder.Occurrence
import CallOrder.Trace

/-!
Occurrences and traces as JSON.
-/

namespace CallOrder

namespace Span

def toJson (s : Span) : Json :=
  .object [("start_line", .natural s.startLine), ("start_col", .natural s.startCol),
    ("end_line", .natural s.endLine), ("end_col", .natural s.endCol)]

def jsonFields : List Field :=
  [.required "start_line", .required "start_col", .required "end_line", .required "end_col"]

def ofJson? (j : Json) : Option Span := do
  match ← j.record? jsonFields with
  | [some startLine, some startCol, some endLine, some endCol] =>
    return ⟨← startLine.word?, ← startCol.word?, ← endLine.word?, ← endCol.word?⟩
  | _ => none

end Span

namespace Argument

def toJson (a : Argument) : Json :=
  .object [("value", .textOrNull a.value), ("type_name", .textOrNull a.typeName)]

def ofJson? (j : Json) : Option Argument := do
  match ← j.record? [.nullable "value", .nullable "type_name"] with
  | [value, typeName] =>
    return ⟨← Json.nullableField? Json.text? value, ← Json.nullableField? Json.text? typeName⟩
  | _ => none

end Argument

namespace Occurrence

def toJson (o : Occurrence) : Json :=
  .object [("target", .text o.target), ("code", .text o.code), ("file_path", .text o.filePath),
    ("span", o.span.toJson), ("base", .textOrNull o.base), ("position", .natural o.position),
    ("arguments", .array (o.arguments.map Argument.toJson))]

def fields : List Field :=
  [.required "target", .required "code", .required "file_path", .required "span",
    .nullable "base", .required "position", .required "arguments"]

def ofJson? (j : Json) : Option Occurrence := do
  match ← j.record? fields with
  | [some target, some code, some filePath, some span, base, some position, some arguments] =>
    return ⟨← target.text?, ← code.text?, ← filePath.text?, ← Span.ofJson? span,
      ← Json.nullableField? Json.text? base, ← position.word?,
      ← arguments.list? Argument.ofJson?⟩
  | _ => none

end Occurrence

namespace TraceStep

def toJson (s : TraceStep) : Json :=
  .object [("occurrence", .natural s.occurrence), ("token", .text s.token),
    ("position", .natural s.position)]

def ofJson? (j : Json) : Option TraceStep := do
  match ← j.record? [.required "occurrence", .required "token", .required "position"] with
  | [some occurrence, some token, some position] =>
    return ⟨← occurrence.word?, ← token.text?, ← position.word?⟩
  | _ => none

end TraceStep

namespace Trace

def toJson (t : Trace) : Json :=
  .object [("base", .text t.base), ("steps", .array (t.steps.map TraceStep.toJson))]

def ofJson? (j : Json) : Option Trace := do
  match ← j.record? [.required "base", .required "steps"] with
  | [some base, some steps] => return ⟨← base.text?, ← steps.list? TraceStep.ofJson?⟩
  | _ => none

end Trace

end CallOrder
