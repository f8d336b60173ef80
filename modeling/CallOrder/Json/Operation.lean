import CallOrder.Json.Record
import CallOrder.Operation

/-!
Operations as JSON.
-/

namespace CallOrder

namespace ArgumentPattern

def toJson : ArgumentPattern → Json
  | wildcard => .text "wildcard"
  | value literal => .object [("value", .text literal)]
  | type name => .object [("type", .text name)]
  | oneOf literals => .object [("one_of", .texts literals)]

def ofJson? (j : Json) : Option ArgumentPattern := do
  match ← j.variant? with
  | ("wildcard", none) | ("wildcard", some .null) => return wildcard
  | ("value", some content) => return value (← content.text?)
  | ("type", some content) => return type (← content.text?)
  | ("one_of", some content) => return oneOf (← content.list? Json.text?)
  | _ => none

end ArgumentPattern

namespace Operation

def signatureJson : Option (List ArgumentPattern) → Json
  | some conditions => .array (conditions.map ArgumentPattern.toJson)
  | none => .null

def toJson (op : Operation) : Json :=
  .object [("target", .text op.target), ("signature", signatureJson op.signature)]

def fields : List Field := [.required "target", .optional "signature"]

def ofJson? (j : Json) : Option Operation := do
  match ← j.record? fields with
  | [some target, signature] =>
    return ⟨← target.text?,
      ← Json.nullableField? (Json.list? ArgumentPattern.ofJson?) signature⟩
  | _ => none

end Operation

end CallOrder
