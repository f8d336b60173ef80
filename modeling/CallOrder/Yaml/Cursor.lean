/-!
A place in YAML text, and the kinds of character that there are.
-/

namespace CallOrder.Yaml

def isBlank (c : Char) : Bool := c == ' ' || c == '\t'

def isBreak (c : Char) : Bool :=
  c == '\n' || c == '\r' || c == '\u0085' || c == '\u2028' || c == '\u2029'

def isSpace (c : Char) : Bool := isBlank c || isBreak c

def isWord (c : Char) : Bool := c.isAlphanum || c == '_' || c == '-'

def word (cs : List Char) : List Char := cs.takeWhile isWord

def isAllowed (c : Char) : Bool :=
  let n := c.toNat
  n == 0x09 || n == 0x0A || n == 0x0D || (0x20 ≤ n && n ≤ 0x7E) || n == 0x85 ||
    (0xA0 ≤ n && n ≤ 0xD7FF) || (0xE000 ≤ n && n ≤ 0xFFFD) || 0x10000 ≤ n

def byteCount (cs : List Char) : Nat := cs.foldl (fun n c => n + c.utf8Size) 0

/-- A place in a text: what is ahead, and how many bytes, lines and characters of the line are
behind. -/
structure Cursor where
  rest : List Char
  bytes : Nat
  line : Nat
  column : Nat
  deriving Repr

namespace Cursor

def start (cs : List Char) : Cursor := ⟨cs, 0, 0, 0⟩

/-- Passes `n` characters, none of which ends a line. -/
def skipMany (c : Cursor) (n : Nat) : Cursor :=
  ⟨c.rest.drop n, c.bytes + byteCount (c.rest.take n), c.line, c.column + n⟩

def skip (c : Cursor) : Cursor := c.skipMany 1

def skipBreak (c : Cursor) : Cursor :=
  match c.rest with
  | '\r' :: '\n' :: rest => ⟨rest, c.bytes + 2, c.line + 1, 0⟩
  | b :: rest => ⟨rest, c.bytes + b.utf8Size, c.line + 1, 0⟩
  | [] => c

/-- What the end of a line ahead means within a scalar. -/
def breakText (c : Cursor) : Char :=
  match c.rest with
  | '\u2028' :: _ => '\u2028'
  | '\u2029' :: _ => '\u2029'
  | _ => '\n'

def skipWhile (c : Cursor) (p : Char → Bool) : Cursor :=
  c.skipMany (c.rest.takeWhile p).length

def skipLine (c : Cursor) : Cursor := c.skipWhile (!isBreak ·)

def isGap : List Char → Bool
  | [] => true
  | c :: _ => isSpace c

def atLineEnd (c : Cursor) : Bool := c.rest.head?.all isBreak

def atDocumentMark (c : Cursor) : Bool :=
  c.column == 0 && match c.rest with
    | '-' :: '-' :: '-' :: rest => isGap rest
    | '.' :: '.' :: '.' :: rest => isGap rest
    | _ => false

end Cursor

end CallOrder.Yaml
