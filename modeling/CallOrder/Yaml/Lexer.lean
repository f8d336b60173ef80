import CallOrder.Yaml.Token

/-!
From YAML text to tokens. Block collections are told by indentation alone, and what turns out to be
the key of a mapping is told only by the colon behind it, so the tokens in front of a key are put in
afterwards.
-/

namespace CallOrder.Yaml

/-- A place where the key of a mapping may have begun. -/
structure KeyStart where
  /-- Whether nothing but a key can stand there. -/
  needed : Bool
  token : Nat
  bytes : Nat
  line : Nat
  column : Nat
  deriving Repr

structure Lexer where
  cursor : Cursor
  tokens : Array Token
  /-- The indentation of the innermost open block, or -1. -/
  indent : Int
  /-- The indentations of the blocks around it, innermost first. -/
  outer : List Int
  /-- Whether a key may begin here without a question mark. -/
  keyAllowed : Bool
  /-- The possible key of the innermost collection in brackets, or of the block. -/
  keyStart : Option KeyStart
  /-- The same for what lies around it, one for each open bracket. -/
  outerStarts : List (Option KeyStart)
  deriving Repr

namespace Lexer

def start (cs : List Char) : Lexer := ⟨.start cs, #[], -1, [], true, none, []⟩

def inFlow (l : Lexer) : Bool := !l.outerStarts.isEmpty

def push (l : Lexer) (t : Token) : Lexer := { l with tokens := l.tokens.push t }

def insertAt (l : Lexer) (place : Nat) (t : Token) : Lexer :=
  { l with tokens := if place ≤ l.tokens.size then l.tokens.insertIdxIfInBounds place t else l.tokens }

def skipMany (l : Lexer) (n : Nat) : Lexer := { l with cursor := l.cursor.skipMany n }

def allowKey (l : Lexer) (allowed : Bool) : Lexer := { l with keyAllowed := allowed }

/-- Passes blanks, comments and line ends, and byte order marks that begin a line. -/
def skipSpace (steps : Nat) (l : Lexer) : Lexer :=
  match steps with
  | 0 => l
  | steps + 1 =>
    match l.cursor.rest with
    | [] => l
    | c :: _ =>
      if c = ' ' || (c = '\t' && (l.inFlow || !l.keyAllowed)) ||
          (c = '\ufeff' && l.cursor.column == 0) then
        skipSpace steps (l.skipMany 1)
      else if c = '#' then skipSpace steps { l with cursor := l.cursor.skipLine }
      else if isBreak c then
        skipSpace steps
          { l with cursor := l.cursor.skipBreak, keyAllowed := l.keyAllowed || !l.inFlow }
      else l

/-- A key stands on one line and has at most 1024 bytes. -/
def KeyStart.isStale (cursor : Cursor) (k : KeyStart) : Bool :=
  k.line < cursor.line || k.bytes + 1024 < cursor.bytes

def dropStale? (cursor : Cursor) : Option KeyStart → Option (Option KeyStart)
  | some k =>
    if KeyStart.isStale cursor k then if k.needed then none else some none else some (some k)
  | none => some none

def dropAllStale? (l : Lexer) : Option Lexer := do
  let keyStart ← dropStale? l.cursor l.keyStart
  let outerStarts ← l.outerStarts.mapM (dropStale? l.cursor)
  return { l with keyStart, outerStarts }

def forgetKey? (l : Lexer) : Option Lexer :=
  if l.keyStart.any (·.needed) then none else some { l with keyStart := none }

def noteKey? (l : Lexer) : Option Lexer :=
  if l.keyAllowed then do
    let needed := !l.inFlow && l.indent == (l.cursor.column : Int)
    let k : KeyStart :=
      ⟨needed, l.tokens.size, l.cursor.bytes, l.cursor.line, l.cursor.column⟩
    return { (← l.forgetKey?) with keyStart := some k }
  else some l

/-- Opens a block at `column` where it is indented further than the innermost one. -/
def openBlock (l : Lexer) (column place : Nat) (t : Token) : Lexer :=
  if !l.inFlow && l.indent < (column : Int) then
    { l.insertAt place t with indent := column, outer := l.indent :: l.outer }
  else l

def closeBlocks (column indent : Int) (tokens : Array Token) : List Int → Int × Array Token × List Int
  | [] => (indent, tokens, [])
  | next :: outer =>
    if column < indent then closeBlocks column next (tokens.push .blockEnd) outer
    else (indent, tokens, next :: outer)

def closeTo (l : Lexer) (column : Int) : Lexer :=
  if l.inFlow then l
  else
    let (indent, tokens, outer) := closeBlocks column l.indent l.tokens l.outer
    { l with indent, tokens, outer }

def take (l : Lexer) (n : Nat) (t : Token) : Lexer := (l.skipMany n).push t

def openFlow? (l : Lexer) (t : Token) : Option Lexer := do
  let l ← l.noteKey?
  return { l.take 1 t with
    outerStarts := l.keyStart :: l.outerStarts, keyStart := none, keyAllowed := true }

def closeFlow? (l : Lexer) (t : Token) : Option Lexer := do
  let l ← l.forgetKey?
  let l := match l.outerStarts with
    | [] => l
    | keyStart :: outerStarts => { l with keyStart, outerStarts }
  return (l.allowKey false).take 1 t

def flowEntry? (l : Lexer) : Option Lexer := do
  return ((← l.forgetKey?).allowKey true).take 1 .flowEntry

def beginHere? (l : Lexer) (t : Token) : Option Lexer :=
  if l.inFlow then some l
  else if l.keyAllowed then some (l.openBlock l.cursor.column l.tokens.size t)
  else none

def blockEntry? (l : Lexer) : Option Lexer := do
  let l ← l.beginHere? .blockSequenceStart
  return ((← l.forgetKey?).allowKey true).take 1 .blockEntry

def key? (l : Lexer) : Option Lexer := do
  let l ← l.beginHere? .blockMappingStart
  return ((← l.forgetKey?).allowKey (!l.inFlow)).take 1 .key

def value? (l : Lexer) : Option Lexer :=
  match l.keyStart with
  | some k =>
    let l := (l.insertAt k.token .key).openBlock k.column k.token .blockMappingStart
    some (({ l with keyStart := none }.allowKey false).take 1 .value)
  | none => do
    let l ← l.beginHere? .blockMappingStart
    return (l.allowKey (!l.inFlow)).take 1 .value

def finish (l : Lexer) (t : Token × Cursor) : Lexer := { l.push t.1 with cursor := t.2 }

def named? (l : Lexer) (token : String → Token) : Option Lexer := do
  let l ← l.noteKey?
  let (name, cursor) ← anchorName? l.cursor.skip
  return (l.allowKey false).finish (token name, cursor)

def tagged? (l : Lexer) : Option Lexer := do
  let l ← l.noteKey?
  return (l.allowKey false).finish (← tag? l.inFlow l.cursor)

def block? (l : Lexer) (style : Style) : Option Lexer := do
  let l ← l.forgetKey?
  let s ← Yaml.block? (style == .literal) l.indent l.cursor.skip
  return (l.allowKey true).finish (.scalar style s.text, s.cursor)

def quoted? (l : Lexer) (style : Style) : Option Lexer := do
  let l ← l.noteKey?
  let cursor := l.cursor.skip
  let s ← Yaml.quoted? (style == .singleQuoted) (cursor.rest.length + 1) [] .empty cursor
  return (l.allowKey false).finish (.scalar style s.text, s.cursor)

def plain? (l : Lexer) : Option Lexer := do
  let l ← l.noteKey?
  let s ← Yaml.plain? l.inFlow (l.indent + 1) (l.cursor.rest.length + 1) [] .empty l.cursor
  return (l.allowKey s.broken).finish (.scalar .plain s.text, s.cursor)

def startsPlain (inFlow : Bool) (c : Char) (rest : List Char) : Bool :=
  if c == '-' then !rest.head?.any isBlank
  else if c == '?' || c == ':' then !inFlow && !Cursor.isGap rest
  else !isSpace c && !",[]\x7b\x7d#&*!|>'\"%@\x60".toList.contains c

def leaveDocument? (l : Lexer) : Option Lexer := do
  return (← (l.closeTo (-1)).forgetKey?).allowKey false

def token? (l : Lexer) (c : Char) (rest : List Char) : Option Lexer :=
  if l.cursor.column = 0 && c == '%' then do
    let l ← l.leaveDocument?
    return l.finish (← directive? l.cursor)
  else if l.cursor.atDocumentMark then do
    let l ← l.leaveDocument?
    return l.take 3 (if c == '-' then .documentStart else .documentEnd)
  else match c with
    | '[' => l.openFlow? .flowSequenceStart
    | '\x7b' => l.openFlow? .flowMappingStart
    | ']' => l.closeFlow? .flowSequenceEnd
    | '\x7d' => l.closeFlow? .flowMappingEnd
    | ',' => l.flowEntry?
    | '*' => l.named? .alias
    | '&' => l.named? .anchor
    | '!' => l.tagged?
    | '\'' => l.quoted? .singleQuoted
    | '"' => l.quoted? .doubleQuoted
    | _ =>
      if c == '-' && Cursor.isGap rest then l.blockEntry?
      else if c == '?' && (l.inFlow || Cursor.isGap rest) then l.key?
      else if c == ':' && (l.inFlow || Cursor.isGap rest) then l.value?
      else if c == '|' && !l.inFlow then l.block? .literal
      else if c == '>' && !l.inFlow then l.block? .folded
      else if startsPlain l.inFlow c rest then l.plain?
      else none

/-- Reads all tokens. Every step but the last takes a character at least. -/
def run? : (steps : Nat) → Lexer → Option (Array Token)
  | 0, _ => none
  | steps + 1, l => do
    let l := l.skipSpace (l.cursor.rest.length + 1)
    let l ← l.dropAllStale?
    let l := l.closeTo l.cursor.column
    match l.cursor.rest with
    | [] => return (← (l.closeTo (-1)).forgetKey?).tokens
    | c :: rest => run? steps (← l.token? c rest)

end Lexer

def tokens? (s : String) : Option (Array Token) :=
  let cs := s.toList
  if cs.all isAllowed then Lexer.run? (cs.length + 1) (.start cs) else none

end CallOrder.Yaml
