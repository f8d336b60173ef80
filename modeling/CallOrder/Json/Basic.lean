/-!
Values of JSON, as they are read and written.
-/

namespace CallOrder

inductive Json where
  | null
  | bool (value : Bool)
  /-- A whole number from 0 to 2^64 - 1. -/
  | natural (value : Nat)
  | number
  | text (value : String)
  /-- What is well formed and yet stands for no value: text with half of a surrogate pair in it, or a
  number beyond all bounds. It does no harm where nobody looks at it. -/
  | unreadable
  | array (items : List Json)
  /-- The fields as they stand, which may repeat a name. -/
  | object (fields : List (String × Json))
  deriving Repr

namespace Json

mutual

def depth : Json → Nat
  | array items => depthOfItems items + 1
  | object fields => depthOfFields fields + 1
  | _ => 0

def depthOfItems : List Json → Nat
  | [] => 0
  | item :: items => max item.depth (depthOfItems items)

def depthOfFields : List (String × Json) → Nat
  | [] => 0
  | (_, value) :: fields => max value.depth (depthOfFields fields)

end

def maxDepth : Nat := 127

def texts (values : List String) : Json := array (values.map text)

def naturals (values : List Nat) : Json := array (values.map natural)

def textOrNull : Option String → Json
  | some value => text value
  | none => null

def naturalOrNull : Option Nat → Json
  | some value => natural value
  | none => null

end Json

end CallOrder
