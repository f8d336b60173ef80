import CallOrder.Yaml.Tag

/-!
The tokens of YAML text, and those that are told by their own characters: directives, anchors,
aliases and tags.
-/

namespace CallOrder.Yaml

inductive Token where
  /-- The version that a document asks for. -/
  | version (major minor : Nat)
  /-- What a tag handle stands for. -/
  | tagHandle (handle : String) (value : Tag)
  | documentStart
  | documentEnd
  | blockSequenceStart
  | blockMappingStart
  | blockEnd
  | flowSequenceStart
  | flowSequenceEnd
  | flowMappingStart
  | flowMappingEnd
  | blockEntry
  | flowEntry
  | key
  | value
  | alias (name : String)
  | anchor (name : String)
  | tag (handle : String) (suffix : Tag)
  | scalar (style : Style) (text : String)
  deriving DecidableEq, Repr

def anchorName? (cursor : Cursor) : Option (String × Cursor) :=
  let name := word cursor.rest
  let after := cursor.skipMany name.length
  let ends := after.rest.head?.all fun c => isSpace c || c == '?' || c == ':' || c == ',' ||
    c == ']' || c == '\x7d' || c == '%' || c == '@' || c == '\x60'
  if name.isEmpty || !ends then none else some (String.ofList name, after)

def tag? (inFlow : Bool) (cursor : Cursor) : Option (Token × Cursor) := do
  let (handle, suffix, after) ← Tag.parts? cursor
  if Cursor.isGap after.rest || (inFlow && after.rest.head? == some ',') then
    return (.tag handle suffix, after)
  else none

def versionNumber? (cursor : Cursor) : Option (Nat × Cursor) :=
  let ds := cursor.rest.takeWhile Char.isDigit
  if ds.isEmpty || 9 < ds.length then none
  else some (ds.foldl (fun n d => n * 10 + (d.toNat - '0'.toNat)) 0, cursor.skipMany ds.length)

def directive? (cursor : Cursor) : Option (Token × Cursor) := do
  let cursor := cursor.skip
  let name := word cursor.rest
  let cursor := cursor.skipMany name.length
  if name.isEmpty || !Cursor.isGap cursor.rest then none
  let cursor := cursor.skipWhile isBlank
  let (token, cursor) ← match String.ofList name with
    | "YAML" => do
      let (major, cursor) ← versionNumber? cursor
      if cursor.rest.head? == some '.' then
        let (minor, cursor) ← versionNumber? cursor.skip
        some (Token.version major minor, cursor)
      else none
    | "TAG" => do
      if cursor.rest.head? != some '!' then none
      let (handle, cursor) := Tag.handle cursor
      if handle != "!" && handle.toList.getLast? != some '!' then none
      if !cursor.rest.head?.any isBlank then none
      let (value, cursor) ← Tag.uri? true (cursor.skipWhile isBlank)
      if Cursor.isGap cursor.rest then some (Token.tagHandle handle value, cursor) else none
    | _ => none
  let cursor := cursor.skipWhile isBlank
  let cursor := if cursor.rest.head? == some '#' then cursor.skipLine else cursor
  if cursor.atLineEnd then
    return (token, if cursor.rest.isEmpty then cursor else cursor.skipBreak)
  else none

end CallOrder.Yaml
