import CallOrder.Json.Reader
import CallOrder.Json.Record
import CallOrder.Pattern.Basic

/-!
Patterns as JSON.
-/

namespace CallOrder

namespace Quantifier

def key : Quantifier → String
  | exactly => "exactly"
  | between => "between"
  | atLeast => "at_least"
  | maybe => "maybe"
  | option => "option"

def toJson (kind : Quantifier) : Json := .text kind.key

def ofJson? (j : Json) : Option Quantifier := do
  match ← j.unitVariant? with
  | "exactly" => some exactly
  | "between" => some between
  | "at_least" => some atLeast
  | "maybe" => some maybe
  | "option" => some option
  | _ => none

end Quantifier

namespace Bound

def toJson : Bound → Json
  | count n => .object [("count", .natural n)]
  | range min max =>
    .object [("range", .object [("min", .natural min), ("max", .natural max)])]

def ofJson? (j : Json) : Option Bound := do
  match ← j.variant? with
  | ("count", some content) => return count (← content.word?)
  | ("range", some content) =>
    match ← content.record? [.required "min", .required "max"] with
    | [some min, some max] => return range (← min.word?) (← max.word?)
    | _ => none
  | _ => none

end Bound

namespace Pattern

def boundJson : Option Bound → Json
  | some bound => bound.toJson
  | none => .null

def toJson : Pattern → Json
  | terminal base token =>
    .object [("terminal", .object [("base", .text base), ("op", .text token)])]
  | sequence left right => .object [("sequence", .array [left.toJson, right.toJson])]
  | alternative left right => .object [("alternative", .array [left.toJson, right.toJson])]
  | quantified child kind bound =>
    .object [("quantified", .object
      [("child", child.toJson), ("kind", kind.toJson), ("bound", boundJson bound)])]

def terminalFields : List Field := [.required "base", .required "op"]

def quantifiedFields : List Field := [.required "child", .required "kind", .nullable "bound"]

def ofJsonWithin? : (levels : Nat) → Json → Option Pattern
  | 0, _ => none
  | levels + 1, j => do
    match ← j.variant? with
    | ("terminal", some content) =>
      match ← content.record? terminalFields with
      | [some base, some op] => return terminal (← base.text?) (← op.text?)
      | _ => none
    | ("sequence", some (.array [left, right])) =>
      return sequence (← ofJsonWithin? levels left) (← ofJsonWithin? levels right)
    | ("alternative", some (.array [left, right])) =>
      return alternative (← ofJsonWithin? levels left) (← ofJsonWithin? levels right)
    | ("quantified", some content) =>
      match ← content.record? quantifiedFields with
      | [some child, some kind, bound] =>
        return quantified (← ofJsonWithin? levels child) (← Quantifier.ofJson? kind)
          (← Json.nullableField? Bound.ofJson? bound)
      | _ => none
    | _ => none

def ofJson? (j : Json) : Option Pattern := ofJsonWithin? (j.depth + 1) j

/-- Reads a pattern from JSON text, which may nest only so deep. Ignored fields do not count, so the
depth is that of the JSON which the pattern itself has. -/
def ofJsonText? (text : String) : Option Pattern :=
  ((Json.parse? text).bind ofJson?).filter fun p => p.toJson.depth ≤ Json.maxDepth

end Pattern

end CallOrder
