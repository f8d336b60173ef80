import CallOrder.Json.Basic
import CallOrder.Json.Number
import CallOrder.Text.Hex

/-!
Reading JSON text. Comments, trailing commas and anything behind the value are refused.
-/

namespace CallOrder.Json

def isBlank (c : Char) : Bool := c == ' ' || c == '\n' || c == '\r' || c == '\t'

def skipBlanks (cs : List Char) : List Char := cs.dropWhile isBlank

def hex4? (a b c d : Char) : Option Nat := do
  return ((← Text.hexValue? a) * 16 + (← Text.hexValue? b)) * 256 +
    (← Text.hexValue? c) * 16 + (← Text.hexValue? d)

def shortEscape? (c : Char) : Option Char :=
  match c with
  | '"' => some '"'
  | '\\' => some '\\'
  | '/' => some '/'
  | 'b' => some '\x08'
  | 'f' => some '\x0c'
  | 'n' => some '\n'
  | 'r' => some '\r'
  | 't' => some '\t'
  | _ => none

/-- The inside of a string literal as far as it has been read. -/
structure Literal where
  /-- Last character first. -/
  reversed : List Char
  /-- The first half of a surrogate pair that waits for the second. -/
  half : Option Nat
  /-- Whether all halves have met. -/
  sound : Bool

namespace Literal

def empty : Literal := ⟨[], none, true⟩

def push (l : Literal) (c : Char) : Literal := ⟨c :: l.reversed, none, l.sound && l.half.isNone⟩

def pushUnit (l : Literal) (unit : Nat) : Literal :=
  if 0xDC00 ≤ unit ∧ unit < 0xE000 then
    match l.half with
    | some high =>
      ⟨Char.ofNat (0x10000 + (high - 0xD800) * 0x400 + (unit - 0xDC00)) :: l.reversed, none, l.sound⟩
    | none => { l with sound := false }
  else if 0xD800 ≤ unit ∧ unit < 0xDC00 then ⟨l.reversed, some unit, l.sound && l.half.isNone⟩
  else l.push (Char.ofNat unit)

def text? (l : Literal) : Option String :=
  if l.sound && l.half.isNone then some (String.ofList l.reversed.reverse) else none

end Literal

def literal? (l : Literal) : List Char → Option (Literal × List Char)
  | '"' :: rest => some (l, rest)
  | '\\' :: 'u' :: a :: b :: c :: d :: rest => do literal? (l.pushUnit (← hex4? a b c d)) rest
  | '\\' :: e :: rest => do literal? (l.push (← shortEscape? e)) rest
  | c :: rest => if c = '\\' ∨ c.toNat < 0x20 then none else literal? (l.push c) rest
  | [] => none

def ofLiteral (l : Literal) : Json :=
  match l.text? with
  | some s => text s
  | none => unreadable

def exponent? : List Char → Option (Option Int × List Char)
  | c :: rest =>
    if c = 'e' ∨ c = 'E' then
      let (negative, rest) := match rest with
        | '-' :: rest => (true, rest)
        | '+' :: rest => (false, rest)
        | rest => (false, rest)
      match Decimal.run rest with
      | [] => none
      | ds =>
        let e : Int := Decimal.natOf ds
        some (some (if negative then -e else e), rest.drop ds.length)
    else some (none, c :: rest)
  | [] => some (none, [])

def fraction? : List Char → Option (List Char × List Char)
  | '.' :: rest =>
    match Decimal.run rest with
    | [] => none
    | ds => some (ds, rest.drop ds.length)
  | rest => some ([], rest)

def number? (negative : Bool) (cs : List Char) : Option (Json × List Char) := do
  let whole := Decimal.run cs
  if whole.isEmpty || (whole.head? == some '0' && 1 < whole.length) then none
  let (fraction, rest) ← fraction? (cs.drop whole.length)
  let (exponent, rest) ← exponent? rest
  let n := Decimal.natOf (whole ++ fraction)
  if fraction.isEmpty && exponent.isNone && !negative && n < UInt64.size then
    return (natural n, rest)
  else if overflows (significant whole fraction (exponent.getD 0)) then return (unreadable, rest)
  else return (number, rest)

/-- An object, unless one of its names stands for no text. -/
def ofFields (fields : List (Option String × Json)) : Json :=
  match fields.mapM fun field => field.1.map (·, field.2) with
  | some fields => object fields
  | none => unreadable

mutual

/-- Reads one value. Every step takes at least one character, or leaves that to the next one. -/
def value? : (steps : Nat) → List Char → Option (Json × List Char)
  | 0, _ => none
  | steps + 1, cs =>
    match skipBlanks cs with
    | 'n' :: 'u' :: 'l' :: 'l' :: rest => some (null, rest)
    | 't' :: 'r' :: 'u' :: 'e' :: rest => some (bool true, rest)
    | 'f' :: 'a' :: 'l' :: 's' :: 'e' :: rest => some (bool false, rest)
    | '"' :: rest => do
      let (l, rest) ← literal? .empty rest
      return (ofLiteral l, rest)
    | '[' :: rest =>
      match skipBlanks rest with
      | ']' :: rest => some (array [], rest)
      | rest => items? steps [] rest
    | '\x7b' :: rest =>
      match skipBlanks rest with
      | '\x7d' :: rest => some (object [], rest)
      | rest => fields? steps [] rest
    | '-' :: rest => number? true rest
    | rest => number? false rest

/-- Reads the items of an array up to its end, behind those read `before`, last first. -/
def items? : (steps : Nat) → (before : List Json) → List Char → Option (Json × List Char)
  | 0, _, _ => none
  | steps + 1, before, cs =>
    match value? steps cs with
    | none => none
    | some (item, rest) =>
      match skipBlanks rest with
      | ',' :: rest => items? steps (item :: before) rest
      | ']' :: rest => some (array (item :: before).reverse, rest)
      | _ => none

def fields? : (steps : Nat) → (before : List (Option String × Json)) → List Char →
    Option (Json × List Char)
  | 0, _, _ => none
  | steps + 1, before, cs =>
    match skipBlanks cs with
    | '"' :: rest =>
      match literal? .empty rest with
      | none => none
      | some (name, rest) =>
        match skipBlanks rest with
        | ':' :: rest =>
          match value? steps rest with
          | none => none
          | some (value, rest) =>
            match skipBlanks rest with
            | ',' :: rest => fields? steps ((name.text?, value) :: before) rest
            | '\x7d' :: rest => some (ofFields ((name.text?, value) :: before).reverse, rest)
            | _ => none
        | _ => none
    | _ => none

end

def parse? (s : String) : Option Json := do
  let cs := s.toList
  let (value, rest) ← value? (2 * cs.length + 2) cs
  if (skipBlanks rest).isEmpty then return value else none

end CallOrder.Json
