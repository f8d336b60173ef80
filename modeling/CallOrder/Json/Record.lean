import CallOrder.Field
import CallOrder.Json.Basic
import Std.Data.ExtTreeMap

/-!
Reading records, variants, lists and maps from JSON values. A record is an object with its fields in
any order, or an array of them in the order of their declaration; unknown fields of an object are
ignored.
-/

namespace CallOrder.Json

def record? (fs : List Field) : Json → Option (List (Option Json))
  | object fields => Field.allNamed? fs fields
  | array items => Field.placed? fs items
  | _ => none

/-- The name of a variant and what comes with it: a text, or an object of one field. -/
def variant? : Json → Option (String × Option Json)
  | text name => some (name, none)
  | object [(name, content)] => some (name, some content)
  | _ => none

def unitVariant? (j : Json) : Option String :=
  match j.variant? with
  | some (name, none) | some (name, some null) => some name
  | _ => none

def text? : Json → Option String
  | text s => some s
  | _ => none

def bool? : Json → Option Bool
  | bool b => some b
  | _ => none

def natural? : Json → Option Nat
  | natural n => some n
  | _ => none

/-- A whole number of at most 32 bits. -/
def word? : Json → Option Nat
  | natural n => if n < UInt32.size then some n else none
  | _ => none

variable {α : Type}

def list? (read : Json → Option α) : Json → Option (List α)
  | array items => items.mapM read
  | _ => none

def nullable? (read : Json → Option α) : Json → Option (Option α)
  | null => some none
  | j => (read j).map some

def nullableField? (read : Json → Option α) : Option Json → Option (Option α)
  | none => some none
  | some j => nullable? read j

/-- Reads a field that has a standard value where it is left out. -/
def optionalField? (read : Json → Option α) (standard : α) : Option Json → Option α
  | none => some standard
  | some j => read j

/-- Reads an object as a map. Of a name that it repeats the last value holds. -/
def map? (read : Json → Option α) : Json → Option (Std.ExtTreeMap String α)
  | object fields => do
    return .ofList (← fields.mapM fun field => do return (field.1, ← read field.2))
  | _ => none

def ofMap (write : α → Json) (m : Std.ExtTreeMap String α) : Json :=
  object (m.toList.map fun entry => (entry.1, write entry.2))

end CallOrder.Json
