import CallOrder.Json.Basic

/-!
The text of a JSON value, without blanks.
-/

namespace CallOrder.Json

def hexDigit (n : Nat) : Char := (Nat.digitChar n)

def escape (c : Char) : String :=
  if c = '"' then "\\\""
  else if c = '\\' then "\\\\"
  else if c.toNat < 0x20 then
    "\\u00" ++ String.ofList [hexDigit (c.toNat / 16), hexDigit (c.toNat % 16)]
  else c.toString

def literal (s : String) : String := "\"" ++ String.join (s.toList.map escape) ++ "\""

mutual

/-- The text of a value put behind `before`. -/
def renderAfter (before : String) : Json → String
  | null | number | unreadable => before ++ "null"
  | bool value => before ++ toString value
  | natural value => before ++ toString value
  | text value => before ++ literal value
  | array items => renderItems (before ++ "[") "" items ++ "]"
  | object fields => renderFields (before ++ "\x7b") "" fields ++ "\x7d"

def renderItems (before separator : String) : List Json → String
  | [] => before
  | item :: items => renderItems (renderAfter (before ++ separator) item) "," items

def renderFields (before separator : String) : List (String × Json) → String
  | [] => before
  | (name, value) :: fields =>
    renderFields (renderAfter (before ++ separator ++ literal name ++ ":") value) "," fields

end

def render (j : Json) : String := renderAfter "" j

end CallOrder.Json
