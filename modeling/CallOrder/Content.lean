import CallOrder.Json.Basic

/-!
Values whose shape is known before their meaning: what stands in a document where it takes a look at
a value to tell what it is.
-/

namespace CallOrder

inductive Content where
  | null
  | bool (value : Bool)
  /-- A whole number from 0 on, written without a minus sign. -/
  | natural (value : Nat)
  /-- A whole number with a minus sign before `magnitude`. -/
  | negative (magnitude : Nat)
  /-- A number with a fraction or an exponent, or beyond the whole numbers. -/
  | fraction
  | text (value : String)
  | list (items : List Content)
  | table (entries : List (Content × Content))
  deriving Repr

namespace Content

/-- A whole number of at most 32 bits, where minus zero is zero. -/
def word? : Content → Option Nat
  | natural n => if n < UInt32.size then some n else none
  | negative 0 => some 0
  | _ => none

mutual

def depth : Content → Nat
  | list items => depthOfItems items + 1
  | table entries => depthOfEntries entries + 1
  | _ => 0

def depthOfItems : List Content → Nat
  | [] => 0
  | item :: items => max item.depth (depthOfItems items)

def depthOfEntries : List (Content × Content) → Nat
  | [] => 0
  | (key, value) :: entries => max (max key.depth value.depth) (depthOfEntries entries)

end

end Content

namespace Json

mutual

/-- A JSON value as content, unless a part of it is unreadable. -/
def toContent? : Json → Option Content
  | null => some .null
  | bool value => some (.bool value)
  | natural value => some (.natural value)
  | number => some .fraction
  | text value => some (.text value)
  | unreadable => none
  | array items => (toContents? items).map .list
  | object fields => (toEntries? fields).map .table

def toContents? : List Json → Option (List Content)
  | [] => some []
  | item :: items =>
    match item.toContent?, toContents? items with
    | some item, some items => some (item :: items)
    | _, _ => none

def toEntries? : List (String × Json) → Option (List (Content × Content))
  | [] => some []
  | (name, value) :: fields =>
    match value.toContent?, toEntries? fields with
    | some value, some fields => some ((.text name, value) :: fields)
    | _, _ => none

end

end Json

end CallOrder
