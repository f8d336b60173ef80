import CallOrder.Yaml.Lexer

/-!
The nodes of a YAML document, from its tokens. A node with an anchor gets a label, and an alias
holds the label that its name has where the alias stands.
-/

namespace CallOrder.Yaml

structure Properties where
  /-- What aliases know the node by. -/
  label : Option Nat
  tag : Option Tag
  deriving DecidableEq, Repr

namespace Properties

def bare : Properties := ⟨none, none⟩

def localName? (p : Properties) : Option String := p.tag.bind Tag.localName?

end Properties

inductive Node where
  | scalar (properties : Properties) (style : Style) (text : String)
  | sequence (properties : Properties) (items : List Node)
  | mapping (properties : Properties) (pairs : List (Node × Node))
  /-- An alias, which stands for a node with a given label. -/
  | reference (label : Nat)
  deriving Repr

namespace Node

def empty : Node := scalar .bare .plain ""

structure State where
  tokens : List Token
  /-- What the tag handles stand for. -/
  handles : List (String × Tag)
  /-- The labels of the names, each name once. -/
  labels : List (String × Nat)

namespace State

def next? (s : State) : Option Token := s.tokens.head?

def skip (s : State) : State := { s with tokens := s.tokens.tail }

def findLabel? (s : State) (name : String) : Option Nat :=
  (s.labels.find? (·.1 == name)).map (·.2)

/-- Gives the node ahead a name. Its label is the number of names known before, so that after a name
has been used again the next new name shares its label. -/
def bindName (s : State) (name : String) : Nat × State :=
  let label := s.labels.length
  (label, { s with labels := (name, label) :: s.labels.filter (·.1 != name) })

end State

def labelOf? (s : State) : Option (Nat × State) :=
  match s.next? with
  | some (.anchor name) => some (s.skip.bindName name)
  | _ => none

def tagOf? (s : State) : Option (Option Tag × State) :=
  match s.next? with
  | some (.tag handle suffix) => some (Tag.resolve? s.handles handle suffix, s.skip)
  | _ => none

def properties? (s : State) : Option (Properties × State) :=
  match labelOf? s with
  | some (label, s) =>
    match tagOf? s with
    | some (none, _) => none
    | some (tag, s) => some (⟨some label, tag⟩, s)
    | none => some (⟨some label, none⟩, s)
  | none =>
    match tagOf? s with
    | some (none, _) => none
    | some (tag, s) =>
      match labelOf? s with
      | some (label, s) => some (⟨some label, tag⟩, s)
      | none => some (⟨none, tag⟩, s)
    | none => some (.bare, s)

mutual

/-- Reads a node. Outside brackets it may be a block, and a block sequence as deep as the mapping it
stands in where `indentless`. -/
def node? : (steps : Nat) → (block indentless : Bool) → State → Option (Node × State)
  | 0, _, _, _ => none
  | steps + 1, block, indentless, s =>
    match s.next? with
    | some (.alias name) => do return (reference (← s.findLabel? name), s.skip)
    | _ => do
      let (p, s) ← properties? s
      match s.next? with
      | some (.scalar style text) => some (scalar p style text, s.skip)
      | some .flowSequenceStart => do
        let (items, s) ← flowItems? steps true s.skip
        some (sequence p items, s)
      | some .flowMappingStart => do
        let (pairs, s) ← flowPairs? steps true s.skip
        some (mapping p pairs, s)
      | some .blockEntry =>
        if indentless then do
          let (items, s) ← indentlessItems? steps s
          some (sequence p items, s)
        else missing? p s
      | some .blockSequenceStart =>
        if block then do
          let (items, s) ← blockItems? steps s.skip
          some (sequence p items, s)
        else missing? p s
      | some .blockMappingStart =>
        if block then do
          let (pairs, s) ← blockPairs? steps s.skip
          some (mapping p pairs, s)
        else missing? p s
      | _ => missing? p s

def missing? (p : Properties) (s : State) : Option (Node × State) :=
  if p = .bare then none else some (scalar p .plain "", s)

def blockItems? : (steps : Nat) → State → Option (List Node × State)
  | 0, _ => none
  | steps + 1, s =>
    match s.next? with
    | some .blockEntry => do
      let (item, s) ← match s.skip.next? with
        | some .blockEntry | some .blockEnd => some (empty, s.skip)
        | _ => node? steps true false s.skip
      let (items, s) ← blockItems? steps s
      return (item :: items, s)
    | some .blockEnd => some ([], s.skip)
    | _ => none

/-- Reads the items of a block sequence that no token ends. -/
def indentlessItems? : (steps : Nat) → State → Option (List Node × State)
  | 0, _ => none
  | steps + 1, s =>
    match s.next? with
    | some .blockEntry => do
      let (item, s) ← match s.skip.next? with
        | some .blockEntry | some .key | some .value | some .blockEnd => some (empty, s.skip)
        | _ => node? steps true false s.skip
      let (items, s) ← indentlessItems? steps s
      return (item :: items, s)
    | _ => some ([], s)

def blockPairs? : (steps : Nat) → State → Option (List (Node × Node) × State)
  | 0, _ => none
  | steps + 1, s =>
    match s.next? with
    | some .key => do
      let (key, s) ← blockPart? steps s.skip
      let (value, s) ← match s.next? with
        | some .value => blockPart? steps s.skip
        | _ => some (empty, s)
      let (pairs, s) ← blockPairs? steps s
      return ((key, value) :: pairs, s)
    | some .blockEnd => some ([], s.skip)
    | _ => none

def blockPart? : (steps : Nat) → State → Option (Node × State)
  | 0, _ => none
  | steps + 1, s =>
    match s.next? with
    | some .key | some .value | some .blockEnd => some (empty, s)
    | _ => node? steps true true s

def flowItems? : (steps : Nat) → (first : Bool) → State → Option (List Node × State)
  | 0, _, _ => none
  | steps + 1, first, s =>
    match s.next? with
    | some .flowSequenceEnd => some ([], s.skip)
    | _ => do
      let s ← separated? first s
      match s.next? with
      | some .flowSequenceEnd => return ([], s.skip)
      | some .key => do
        let (pair, s) ← flowPair? steps s.skip
        let (items, s) ← flowItems? steps false s
        return (mapping .bare [pair] :: items, s)
      | _ => do
        let (item, s) ← node? steps false false s
        let (items, s) ← flowItems? steps false s
        return (item :: items, s)

def separated? (first : Bool) (s : State) : Option State :=
  if first then some s
  else match s.next? with
    | some .flowEntry => some s.skip
    | _ => none

/-- Reads a single pair within a sequence in brackets. Where its key is left out, the token in place
of the key is passed over. -/
def flowPair? : (steps : Nat) → State → Option ((Node × Node) × State)
  | 0, _ => none
  | steps + 1, s => do
    let (key, s) ← match s.next? with
      | some .value | some .flowEntry | some .flowSequenceEnd => some (empty, s.skip)
      | _ => node? steps false false s
    match s.next? with
    | some .value =>
      match s.skip.next? with
      | some .flowEntry | some .flowSequenceEnd => return ((key, empty), s.skip)
      | _ => do
        let (value, s) ← node? steps false false s.skip
        return ((key, value), s)
    | _ => return ((key, empty), s)

def flowPairs? : (steps : Nat) → (first : Bool) → State → Option (List (Node × Node) × State)
  | 0, _, _ => none
  | steps + 1, first, s =>
    match s.next? with
    | some .flowMappingEnd => some ([], s.skip)
    | _ => do
      let s ← separated? first s
      match s.next? with
      | some .flowMappingEnd => return ([], s.skip)
      | some .key => do
        let (key, s) ← flowPart? steps s.skip
        let (value, s) ← match s.next? with
          | some .value => flowPart? steps s.skip
          | _ => some (empty, s)
        let (pairs, s) ← flowPairs? steps false s
        return ((key, value) :: pairs, s)
      | _ => do
        let (key, s) ← node? steps false false s
        let (pairs, s) ← flowPairs? steps false s
        return ((key, empty) :: pairs, s)

def flowPart? : (steps : Nat) → State → Option (Node × State)
  | 0, _ => none
  | steps + 1, s =>
    match s.next? with
    | some .value | some .flowEntry | some .flowMappingEnd => some (empty, s)
    | _ => node? steps false false s

end

def standardHandles : List (String × Tag) :=
  [("!", .ofString "!"), ("!!", .standard "")]

/-- Reads the directives of a document, given what has been read of them. Versions other than 1.1 and
1.2 are refused, as is anything that is said twice. -/
def directives? : (tokens : List Token) → (versioned : Bool) → (handles : List (String × Tag)) →
    Option (List Token × List (String × Tag))
  | .version major minor :: rest, versioned, handles =>
    if versioned || major != 1 || !(minor == 1 || minor == 2) then none
    else directives? rest true handles
  | .tagHandle handle value :: rest, versioned, handles =>
    if handles.any (·.1 == handle) then none
    else directives? rest versioned (handles ++ [(handle, value)])
  | rest, _, handles => some (rest, handles)

/-- Reads the one document of a text. A text without any counts as one with nothing written. -/
def ofTokens? (tokens : List Token) : Option Node := do
  let steps := 4 * tokens.length + 8
  let (node, rest) ← match tokens with
    | [] => some (empty, [])
    | .version _ _ :: _ | .tagHandle _ _ :: _ | .documentStart :: _ => do
      let (rest, handles) ← directives? tokens false []
      match rest with
      | .documentStart :: content =>
        match content with
        | [] | .version _ _ :: _ | .tagHandle _ _ :: _ | .documentStart :: _ | .documentEnd :: _ =>
          some (empty, content)
        | _ => do
          let (node, s) ← node? steps true false ⟨content, handles ++ standardHandles, []⟩
          some (node, s.tokens)
      | _ => none
    | _ => do
      let (node, s) ← node? steps true false ⟨tokens, standardHandles, []⟩
      some (node, s.tokens)
  if rest.all (· == .documentEnd) then return node else none

end Node

end CallOrder.Yaml
