import CallOrder.Yaml.Scalar

/-!
Tags, which say what a node is, and reading them. A tag is a string of bytes, for escapes can write
bytes that are no text, and it ends at its first zero byte.
-/

namespace CallOrder.Yaml

abbrev Tag := List UInt8

namespace Tag

def ofString (s : String) : Tag := s.toUTF8.toList

/-- A tag up to its first zero byte. -/
def cut (t : Tag) : Tag := t.takeWhile (· != 0)

def standard (name : String) : Tag := ofString ("tag:yaml.org,2002:" ++ name)

def isLocal (t : Tag) : Bool := t.head? == some '!'.toUInt8

def localName? (t : Tag) : Option String :=
  if t.isLocal then String.fromUTF8? t.tail.toByteArray else none

def isMark (c : Char) : Bool := ";/?:@&=+$.!~*'()".toList.contains c

/-- How many more bytes a character has in UTF-8 after its first byte. -/
def trailing? (b : Nat) : Option Nat :=
  if b < 0x80 then some 0
  else if b < 0xC0 then none
  else if b < 0xE0 then some 1
  else if b < 0xF0 then some 2
  else if b < 0xF8 then some 3
  else none

def byte? (cursor : Cursor) : Option (Nat × Cursor) :=
  match cursor.rest with
  | '%' :: a :: b :: _ => do
    return ((← Text.hexValue? a) * 16 + (← Text.hexValue? b), cursor.skipMany 3)
  | _ => none

/-- Reads `n` bytes that go on with a character and puts them before `tag`, which runs backwards. -/
def trail? : (n : Nat) → (tag : Tag) → Cursor → Option (Tag × Cursor)
  | 0, tag, cursor => some (tag, cursor)
  | n + 1, tag, cursor => do
    let (b, cursor) ← byte? cursor
    if b / 64 = 2 then trail? n (.ofNat b :: tag) cursor else none

/-- Reads the characters of a tag, `tag` before them. Commas and square brackets belong to a tag
only where it is written in full. -/
def text? (full : Bool) : (steps : Nat) → (tag : Tag) → Cursor → Option (Tag × Cursor)
  | 0, _, _ => none
  | steps + 1, tag, cursor =>
    match cursor.rest with
    | c :: _ =>
      if c = '%' then do
        let (b, after) ← byte? cursor
        let (tag, after) ← trail? (← trailing? b) (.ofNat b :: tag) after
        text? full steps tag after
      else if isWord c || isMark c || (full && (c == ',' || c == '[' || c == ']')) then
        text? full steps (c.toUInt8 :: tag) cursor.skip
      else some (tag.reverse, cursor)
    | [] => some (tag.reverse, cursor)

def uri? (full : Bool) (cursor : Cursor) : Option (Tag × Cursor) := do
  let (tag, after) ← text? full (cursor.rest.length + 1) [] cursor
  if tag.isEmpty then none else return (tag, after)

/-- Reads the handle of a tag, from its exclamation mark to the next one, if there is one. -/
def handle (cursor : Cursor) : String × Cursor :=
  let name := word cursor.rest.tail
  let after := cursor.skipMany (name.length + 1)
  match after.rest with
  | '!' :: _ => ("!" ++ String.ofList name ++ "!", after.skip)
  | _ => ("!" ++ String.ofList name, after)

/-- Reads a tag at its exclamation mark: its handle, none where it is written in full or is nothing
but that mark, and what comes behind it. -/
def parts? (cursor : Cursor) : Option (String × Tag × Cursor) :=
  match cursor.rest with
  | _ :: '<' :: _ => do
    let (tag, after) ← uri? true (cursor.skipMany 2)
    if after.rest.head? == some '>' then some ("", tag, after.skip) else none
  | _ =>
    let (handle, after) := handle cursor
    if 1 < handle.length && handle.toList.getLast? == some '!' then do
      let (tag, after) ← uri? false after
      some (handle, tag, after)
    else do
      let name := ofString (String.ofList handle.toList.tail)
      let (tag, after) ← text? false (after.rest.length + 1) name.reverse after
      if tag.cut.isEmpty then some ("", ofString "!", after) else some ("!", tag, after)

/-- A tag with its handle replaced by what `handles` say. -/
def resolve? (handles : List (String × Tag)) (handle : String) (suffix : Tag) : Option Tag :=
  if handle.isEmpty then some suffix.cut
  else (handles.find? (·.1 == handle)).map (·.2.cut ++ suffix.cut)

end Tag

end CallOrder.Yaml
