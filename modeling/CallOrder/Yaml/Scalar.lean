import CallOrder.Text.Hex
import CallOrder.Yaml.Cursor

/-!
The four written forms of scalars: plain, in single or double quotes, and blocks. Line ends within
them are folded: one of them counts as a blank, and of several the first does not count.
-/

namespace CallOrder.Yaml

inductive Style where
  | plain
  | singleQuoted
  | doubleQuoted
  | literal
  | folded
  deriving DecidableEq, Repr

/-- The blanks and line ends between two parts of a scalar. -/
structure Gap where
  /-- Last character first; none once a line has ended. -/
  blanks : List Char
  first : Option Char
  /-- The other line ends, last one first. -/
  others : List Char
  /-- Whether a line has ended, even by an escape. -/
  broken : Bool

namespace Gap

def empty : Gap := ⟨[], none, [], false⟩

def pushBlank (g : Gap) (c : Char) : Gap := if g.broken then g else { g with blanks := c :: g.blanks }

def pushBreak (g : Gap) (c : Char) : Gap :=
  if g.broken then { g with others := c :: g.others } else ⟨[], some c, [], true⟩

/-- What a gap stands for, put in front of `text`, which runs backwards. -/
def fill (g : Gap) (text : List Char) : List Char :=
  if g.broken then
    match g.first with
    | some '\n' => if g.others.isEmpty then ' ' :: text else g.others ++ text
    | some c => g.others ++ c :: text
    | none => g.others ++ text
  else g.blanks ++ text

end Gap

structure Scanned where
  text : String
  cursor : Cursor
  /-- Whether line ends were passed behind the last character of the scalar. -/
  broken : Bool

def ofReversed (text : List Char) : String := String.ofList text.reverse

def isFlowIndicator (c : Char) : Bool :=
  c == ',' || c == '[' || c == ']' || c == '\x7b' || c == '\x7d'

/-- Reads a plain scalar that goes on as long as lines are indented by `indent`. Every step passes
one character or one line end. -/
def plain? (inFlow : Bool) (indent : Int) :
    (steps : Nat) → (text : List Char) → Gap → Cursor → Option Scanned
  | 0, _, _, _ => none
  | steps + 1, text, gap, cursor =>
    let done : Option Scanned := some ⟨ofReversed text, cursor, gap.broken⟩
    let inGap := gap.broken || !gap.blanks.isEmpty
    match cursor.rest with
    | [] => done
    | c :: rest =>
      if isBlank c then
        if gap.broken && (cursor.column : Int) < indent && c == '\t' then none
        else plain? inFlow indent steps text (gap.pushBlank c) cursor.skip
      else if isBreak c then
        plain? inFlow indent steps text (gap.pushBreak cursor.breakText) cursor.skipBreak
      else if inGap && ((!inFlow && (cursor.column : Int) < indent) || c == '#') then done
      else if cursor.atDocumentMark then done
      else if inFlow && c == ':' && rest.head?.any (fun d => isFlowIndicator d || d == '?') then none
      else if (c == ':' && Cursor.isGap rest) || (inFlow && isFlowIndicator c) then done
      else plain? inFlow indent steps (c :: gap.fill text) .empty cursor.skip

def escapeLength? : Char → Option Nat
  | 'x' => some 2
  | 'u' => some 4
  | 'U' => some 8
  | _ => none

def shortEscape? (c : Char) : Option Char :=
  match c with
  | '0' => some '\x00'
  | 'a' => some '\x07'
  | 'b' => some '\x08'
  | 't' | '\t' => some '\t'
  | 'n' => some '\n'
  | 'v' => some '\x0b'
  | 'f' => some '\x0c'
  | 'r' => some '\r'
  | 'e' => some '\x1b'
  | ' ' => some ' '
  | '"' => some '"'
  | '/' => some '/'
  | '\\' => some '\\'
  | 'N' => some '\u0085'
  | '_' => some '\u00a0'
  | 'L' => some '\u2028'
  | 'P' => some '\u2029'
  | _ => none

def hex? (n : Nat) (cs : List Char) : Option Nat := do
  let ds ← (cs.take n).mapM Text.hexValue?
  if ds.length = n then return ds.foldl (fun value d => value * 16 + d) 0 else none

def charOf? (n : Nat) : Option Char := if n.isValidChar then some (Char.ofNat n) else none

/-- Reads a scalar in quotes behind the opening one. Every step passes one character, one line end or
one escape. -/
def quoted? (single : Bool) :
    (steps : Nat) → (text : List Char) → Gap → Cursor → Option Scanned
  | 0, _, _, _ => none
  | steps + 1, text, gap, cursor =>
    match cursor.rest with
    | [] => none
    | c :: rest =>
      if isBlank c then quoted? single steps text (gap.pushBlank c) cursor.skip
      else if isBreak c then
        quoted? single steps text (gap.pushBreak cursor.breakText) cursor.skipBreak
      else if cursor.atDocumentMark then none
      else
        let text := gap.fill text
        if c = (if single then '\'' else '"') then
          if single && rest.head? == some '\'' then
            quoted? single steps ('\'' :: text) .empty (cursor.skipMany 2)
          else some ⟨ofReversed text, cursor.skip, false⟩
        else if c = '\\' && !single then
          match rest with
          | [] => none
          | e :: digits =>
            if isBreak e then
              quoted? single steps text ⟨[], none, [], true⟩ cursor.skip.skipBreak
            else
              match escapeLength? e with
              | some n => do
                let d ← charOf? (← hex? n digits)
                quoted? single steps (d :: text) .empty (cursor.skipMany (n + 2))
              | none => do
                quoted? single steps ((← shortEscape? e) :: text) .empty (cursor.skipMany 2)
        else quoted? single steps (c :: text) .empty cursor.skip

/-- What to do with the line ends behind the last line of a block. -/
inductive Chomping where
  | strip
  | clip
  | keep
  deriving DecidableEq, Repr

def chomping? : Char → Option Chomping
  | '+' => some .keep
  | '-' => some .strip
  | _ => none

def indentation? (c : Char) : Option Nat :=
  if '1' ≤ c ∧ c ≤ '9' then some (c.toNat - '0'.toNat) else none

/-- Reads what may stand behind the sign of a block: chomping and indentation in any order. -/
def blockHeader? (cursor : Cursor) : Option (Chomping × Nat × Cursor) :=
  match cursor.rest with
  | c :: rest =>
    match chomping? c, rest with
    | some chomping, d :: _ =>
      if d = '0' then none
      else match indentation? d with
        | some n => some (chomping, n, cursor.skipMany 2)
        | none => some (chomping, 0, cursor.skip)
    | some chomping, [] => some (chomping, 0, cursor.skip)
    | none, _ =>
      if c = '0' then none
      else match indentation? c with
        | some n =>
          match (rest.head?).bind chomping? with
          | some chomping => some (chomping, n, cursor.skipMany 2)
          | none => some (.clip, n, cursor.skip)
        | none => some (.clip, 0, cursor)
  | [] => some (.clip, 0, cursor)

/-- Passes indentation and empty lines. The block is indented by `indent`, or where that is 0, by as
much as the most indented of these lines, and by `least` at any rate. Gives the indentation and the
line ends passed, last one first. -/
def blockGap? (least : Nat) : (steps : Nat) → (indent widest : Nat) → (breaks : List Char) →
    Cursor → Option (Nat × List Char × Cursor)
  | 0, _, _, _, _ => none
  | steps + 1, indent, widest, breaks, cursor =>
    let inIndent := indent = 0 ∨ cursor.column < indent
    match cursor.rest with
    | c :: _ =>
      if inIndent ∧ c = ' ' then blockGap? least steps indent widest breaks cursor.skip
      else
        let widest := max widest cursor.column
        if inIndent ∧ c = '\t' then none
        else if isBreak c then
          blockGap? least steps indent widest (cursor.breakText :: breaks) cursor.skipBreak
        else some (if indent = 0 then max widest (max least 1) else indent, breaks, cursor)
    | [] =>
      let widest := max widest cursor.column
      some (if indent = 0 then max widest (max least 1) else indent, breaks, cursor)

def joinLines (folding : Bool) (first : Option Char) (others : List Char) (text : List Char) :
    List Char :=
  if folding && first == some '\n' then if others.isEmpty then ' ' :: text else others ++ text
  else others ++ first.toList ++ text

/-- Reads the lines of a block that is indented by `indent`. `first` and `others` are the line ends
before the line ahead, and `blankBefore` says whether the line before it began with a blank. -/
def blockLines? (literal : Bool) (chomping : Chomping) (indent : Nat) :
    (steps : Nat) → (text : List Char) → (first : Option Char) → (others : List Char) →
      (blankBefore : Bool) → Cursor → Option Scanned
  | 0, _, _, _, _, _ => none
  | steps + 1, text, first, others, blankBefore, cursor =>
    match cursor.rest with
    | c :: _ =>
      if cursor.column = indent then
        let blank := isBlank c
        let text := joinLines (!literal && !blankBefore && !blank) first others text
        let line := cursor.rest.takeWhile (!isBreak ·)
        let cursor := cursor.skipLine
        let text := line.reverse ++ text
        let (first, cursor) := match cursor.rest with
          | [] => (none, cursor)
          | _ => (some cursor.breakText, cursor.skipBreak)
        match blockGap? 0 (cursor.rest.length + 1) indent 0 [] cursor with
        | none => none
        | some (_, others, cursor) =>
          blockLines? literal chomping indent steps text first others blank cursor
      else some ⟨ofReversed (ending first others text), cursor, false⟩
    | [] => some ⟨ofReversed (ending first others text), cursor, false⟩
where
  /-- The text with the line ends that stay at its end. -/
  ending (first : Option Char) (others : List Char) (text : List Char) : List Char :=
    match chomping with
    | .strip => text
    | .clip => first.toList ++ text
    | .keep => others ++ first.toList ++ text

/-- Reads a block behind its sign, within a block that is indented by `indent`, or by -1 at the top. -/
def block? (literal : Bool) (indent : Int) (cursor : Cursor) : Option Scanned := do
  let (chomping, own, cursor) ← blockHeader? cursor
  let cursor := cursor.skipWhile isBlank
  let cursor := if cursor.rest.head? == some '#' then cursor.skipLine else cursor
  if cursor.atLineEnd then
    let cursor := if cursor.rest.isEmpty then cursor else cursor.skipBreak
    let wanted := if own = 0 then 0 else indent.toNat + own
    let steps := cursor.rest.length + 1
    let (indent, others, cursor) ← blockGap? (indent + 1).toNat steps wanted 0 [] cursor
    blockLines? literal chomping indent steps [] none others false cursor
  else none

end CallOrder.Yaml
