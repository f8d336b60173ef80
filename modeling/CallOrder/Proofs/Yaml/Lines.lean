import CallOrder.Yaml.Lexer
import Mathlib.Tactic.Common

/-!
The tokens of YAML text that has a pair of words on each line. Main statement: such a text is a
block mapping of plain scalars.
-/

namespace CallOrder.Yaml

def isPlainChar (c : Char) : Bool := c.isAlphanum || c == '_'

/-- A word that needs no quotes. -/
structure PlainWord (w : List Char) : Prop where
  present : w ≠ []
  plain : ∀ c ∈ w, isPlainChar c = true

variable {c : Char} {w rest text : List Char}

theorem ne_of_isPlainChar {d : Char} (plain : isPlainChar c = true)
    (other : isPlainChar d = false) : c ≠ d := by
  rintro rfl
  rw [plain] at other
  cases other

theorem not_mem_of_isPlainChar {others : List Char} (plain : isPlainChar c = true)
    (none : others.any isPlainChar = false) : c ∉ others := by
  intro member
  exact List.any_eq_false.mp none c member plain

theorem isAllowed_of_isPlainChar (plain : isPlainChar c = true) : isAllowed c = true := by
  have letter : c.isAlpha = (decide (c.val ≥ 'A'.val ∧ c.val ≤ 'Z'.val) ||
      decide (c.val ≥ 'a'.val) && decide (c.val ≤ 'z'.val)) :=
    rfl
  have printed : 0x20 ≤ c.toNat ∧ c.toNat ≤ 0x7E := by
    simp only [isPlainChar, Char.isAlphanum, letter, Char.isDigit, Bool.or_eq_true,
      Bool.and_eq_true, decide_eq_true_eq, beq_iff_eq, UInt32.le_iff_toNat_le, ge_iff_le] at plain
    rcases plain with numeric | rfl
    · change ((65 ≤ c.toNat ∧ c.toNat ≤ 90) ∨ 97 ≤ c.toNat ∧ c.toNat ≤ 122) ∨
        48 ≤ c.toNat ∧ c.toNat ≤ 57 at numeric
      omega
    · decide
  simp [isAllowed, printed]

theorem byteCount_cons (c : Char) (cs : List Char) :
    byteCount (c :: cs) = byteCount [c] + byteCount cs := by
  have counted : ∀ n, cs.foldl (fun n c => n + c.utf8Size) n = n + byteCount cs := by
    induction cs with
    | nil => exact fun n => rfl
    | cons d cs ih =>
        intro n
        rw [byteCount, List.foldl_cons, List.foldl_cons, ih, ih, ← Nat.add_assoc, Nat.zero_add]
  exact counted _

theorem isBlank_of_isPlainChar (plain : isPlainChar c = true) : isBlank c = false := by
  simp [isBlank, ne_of_isPlainChar plain (show isPlainChar ' ' = false by decide),
    ne_of_isPlainChar plain (show isPlainChar '\t' = false by decide)]

theorem isBreak_of_isPlainChar (plain : isPlainChar c = true) : isBreak c = false := by
  have other : c ∉ ['\n', '\r', '\u0085', '\u2028', '\u2029'] :=
    not_mem_of_isPlainChar plain (by decide)
  simpa [isBreak, and_assoc] using other

theorem atDocumentMark_of_isPlainChar {cursor : Cursor} (ahead : cursor.rest = c :: rest)
    (plain : isPlainChar c = true) : cursor.atDocumentMark = false := by
  have dash : c ≠ '-' := ne_of_isPlainChar plain (by decide)
  have dot : c ≠ '.' := ne_of_isPlainChar plain (by decide)
  rw [Cursor.atDocumentMark, ahead, Bool.and_eq_false_iff]
  right
  split <;> simp_all

/-! ### Plain scalars -/

section Plain

variable {bytes line column : Nat}

theorem skip_mk (c : Char) (rest : List Char) : (Cursor.mk (c :: rest) bytes line column).skip =
    ⟨rest, bytes + byteCount [c], line, column + 1⟩ := rfl

theorem plain?_word {indent : Int} (plain : ∀ c ∈ w, isPlainChar c = true) (steps : Nat) :
    plain? false indent (steps + w.length) text .empty ⟨w ++ rest, bytes, line, column⟩ =
      plain? false indent steps (w.reverse ++ text) .empty
        ⟨rest, bytes + byteCount w, line, column + w.length⟩ := by
  induction w generalizing text bytes column with
  | nil => rfl
  | cons c w ih =>
      obtain ⟨first, others⟩ := List.forall_mem_cons.mp plain
      have colon : (c == ':') = false :=
        beq_eq_false_iff_ne.mpr (ne_of_isPlainChar first (by decide))
      have unmarked : (Cursor.mk (c :: (w ++ rest)) bytes line column).atDocumentMark = false :=
        atDocumentMark_of_isPlainChar rfl first
      have filled : Gap.empty.fill text = text := rfl
      have unbroken : Gap.empty.broken = false := rfl
      have unblank : Gap.empty.blanks = [] := rfl
      rw [List.length_cons, ← Nat.add_assoc, plain?, List.cons_append]
      simp only [isBlank_of_isPlainChar first, isBreak_of_isPlainChar first, unmarked, colon, filled,
        unbroken, unblank, List.isEmpty_nil, skip_mk, Bool.false_or, Bool.false_and, Bool.not_true,
        Bool.false_eq_true, if_false]
      rw [ih others, byteCount_cons c w, List.reverse_cons, List.append_assoc, Nat.add_assoc,
        Nat.add_assoc, Nat.add_comm 1]
      rfl

theorem plain?_key {cursor : Cursor} (ahead : cursor.rest = w ++ ':' :: ' ' :: rest)
    (word : PlainWord w) (indent : Int) :
    plain? false indent (cursor.rest.length + 1) [] .empty cursor =
      some ⟨String.ofList w, ⟨':' :: ' ' :: rest, cursor.bytes + byteCount w, cursor.line,
        cursor.column + w.length⟩, false⟩ := by
  obtain ⟨_, bytes, line, column⟩ := cursor
  obtain rfl := ahead
  have enough : (w ++ ':' :: ' ' :: rest).length + 1 = rest.length + 2 + 1 + w.length := by
    simp only [List.length_append, List.length_cons]
    omega
  rw [enough, plain?_word word.plain, plain?]
  simp [isBlank, isBreak, Gap.empty, Cursor.atDocumentMark, Cursor.isGap, isSpace, ofReversed]

theorem plain?_lineStart {indent : Int} {gap : Gap} (broken : gap.broken = true)
    (outside : 0 < indent) (next : ∀ c ∈ rest.head?, isPlainChar c = true) (steps : Nat) :
    plain? false indent (steps + 1) text gap ⟨rest, bytes, line, 0⟩ =
      some ⟨ofReversed text, ⟨rest, bytes, line, 0⟩, true⟩ := by
  rw [plain?]
  cases rest with
  | nil => simp [broken]
  | cons c rest =>
      have first := next c rfl
      simp [broken, outside, isBlank_of_isPlainChar first, isBreak_of_isPlainChar first]

theorem plain?_value {cursor : Cursor} (ahead : cursor.rest = w ++ '\n' :: rest)
    (word : PlainWord w) {indent : Int} (outside : 0 < indent)
    (next : ∀ c ∈ rest.head?, isPlainChar c = true) :
    plain? false indent (cursor.rest.length + 1) [] .empty cursor =
      some ⟨String.ofList w, ⟨rest, cursor.bytes + byteCount w + 1, cursor.line + 1, 0⟩, true⟩ := by
  obtain ⟨_, bytes, line, column⟩ := cursor
  obtain rfl := ahead
  have enough : (w ++ '\n' :: rest).length + 1 = rest.length + 2 + w.length := by
    simp only [List.length_append, List.length_cons]
    omega
  have ended : plain? false indent (rest.length + 2) w.reverse .empty
      ⟨'\n' :: rest, bytes + byteCount w, line, column + w.length⟩ =
        plain? false indent (rest.length + 1) w.reverse (Gap.empty.pushBreak '\n')
          ⟨rest, bytes + byteCount w + 1, line + 1, 0⟩ := rfl
  rw [enough, plain?_word word.plain, List.append_nil, ended, plain?_lineStart rfl outside next,
    ofReversed, List.reverse_reverse]

end Plain

/-! ### Tokens of a line -/

theorem insertIdx_length_append {α : Type} (front back : List α) (x : α) :
    (front ++ back).insertIdx front.length x = front ++ x :: back := by
  induction front with
  | nil => rfl
  | cons a front ih => exact congrArg (a :: ·) ih

namespace Lexer

variable {l l' : Lexer}

/-- The characters that are passed between tokens, some of them only in their place. -/
def passed : List Char := [' ', '\t', '\ufeff', '#', '\n', '\r', '\u0085', '\u2028', '\u2029']

theorem skipSpace_eq_self (ahead : l.cursor.rest = c :: rest) (solid : c ∉ passed) (steps : Nat) :
    l.skipSpace steps = l := by
  simp only [passed, List.mem_cons, List.not_mem_nil, or_false, not_or] at solid
  cases steps with
  | zero => rfl
  | succ steps => simp [skipSpace, ahead, isBreak, solid]

/-- One step of the lexer in front of a token, where no block ends and no key has been given up. -/
theorem run?_step (skipped : l.skipSpace (l.cursor.rest.length + 1) = l')
    (fresh : l'.dropAllStale? = some l') (level : l'.closeTo l'.cursor.column = l')
    (ahead : l'.cursor.rest = c :: rest) (steps : Nat) :
    run? (steps + 1) l = (l'.token? c rest).bind (run? steps) := by
  simp [run?, skipped, fresh, level, ahead]

theorem token?_plain (ahead : l.cursor.rest = c :: rest) (plain : isPlainChar c = true) :
    l.token? c rest = l.plain? := by
  have other : ∀ d, isPlainChar d = false → (c == d) = false := fun d meaning =>
    beq_eq_false_iff_ne.mpr (ne_of_isPlainChar plain meaning)
  have unspaced : isSpace c = false := by
    rw [isSpace, isBlank_of_isPlainChar plain, isBreak_of_isPlainChar plain, Bool.or_false]
  have meaningless : ",[]\x7b\x7d#&*!|>'\"%@\x60".toList.contains c = false := by
    rw [List.contains_eq_mem, decide_eq_false_iff_not]
    exact not_mem_of_isPlainChar plain (by decide)
  have starts : startsPlain l.inFlow c rest = true := by
    simp only [startsPlain, other '-' (by decide), other '?' (by decide), other ':' (by decide),
      unspaced, meaningless, Bool.or_false, Bool.false_eq_true, if_false, Bool.not_false,
      Bool.and_true]
  rw [token?, if_neg (by simp [other '%' (by decide)]),
    if_neg (by simp [atDocumentMark_of_isPlainChar ahead plain])]
  · simp [other '-' (by decide), other '?' (by decide), other ':' (by decide),
      other '|' (by decide), other '>' (by decide), starts]
  all_goals exact ne_of_isPlainChar plain (by decide)

theorem closeTo_of_le {column : Int} (within : l.indent ≤ column) : l.closeTo column = l := by
  rw [closeTo]
  split
  · rfl
  · have kept : closeBlocks column l.indent l.tokens l.outer = (l.indent, l.tokens, l.outer) := by
      cases around : l.outer with
      | nil => rfl
      | cons next outer => rw [closeBlocks, if_neg (by omega)]
    rw [kept]

theorem insertAt_append {front back : List Token} (tokens : l.tokens = (front ++ back).toArray)
    (t : Token) :
    l.insertAt front.length t = { l with tokens := (front ++ t :: back).toArray } := by
  simp [insertAt, tokens, insertIdx_length_append]

/-- A lexer at the beginning of a line of a mapping that is not indented, before its first line or
behind it. -/
def atLine (rest : List Char) (bytes line : Nat) (tokens : List Token) (started : Bool) :
    Lexer where
  cursor := ⟨rest, bytes, line, 0⟩
  tokens := tokens.toArray
  indent := if started then 0 else -1
  outer := if started then [-1] else []
  keyAllowed := true
  keyStart := none
  outerStarts := []

variable {key value : List Char} {bytes line : Nat} {tokens : List Token} {started : Bool}

def behindKey (rest key : List Char) (bytes line : Nat) (tokens : List Token) (started : Bool) :
    Lexer where
  cursor := ⟨rest, bytes + byteCount key, line, key.length⟩
  tokens := (tokens ++ [Token.scalar .plain (String.ofList key)]).toArray
  indent := if started then 0 else -1
  outer := if started then [-1] else []
  keyAllowed := false
  keyStart := some ⟨started, tokens.length, bytes, line, 0⟩
  outerStarts := []

theorem plain?_eq {s : Scanned} (noted : l.noteKey? = some l') (block : l'.inFlow = false)
    (read : Yaml.plain? false (l'.indent + 1) (l'.cursor.rest.length + 1) [] .empty l'.cursor =
      some s) :
    l.plain? = some ((l'.allowKey s.broken).finish (.scalar .plain s.text, s.cursor)) := by
  simp [plain?, noted, block, read]

theorem plain?_atLine (word : PlainWord key) :
    (atLine (key ++ ':' :: ' ' :: rest) bytes line tokens started).plain? =
      some (behindKey (':' :: ' ' :: rest) key bytes line tokens started) := by
  have noted : (atLine (key ++ ':' :: ' ' :: rest) bytes line tokens started).noteKey? =
      some { atLine (key ++ ':' :: ' ' :: rest) bytes line tokens started with
        keyStart := some ⟨started, tokens.length, bytes, line, 0⟩ } := by
    cases started <;> simp [noteKey?, forgetKey?, atLine, inFlow]
  rw [plain?_eq noted rfl (plain?_key rfl word _)]
  simp [behindKey, atLine, finish, allowKey, push]

theorem run?_key (word : PlainWord key) (steps : Nat) :
    run? (steps + 1) (atLine (key ++ ':' :: ' ' :: rest) bytes line tokens started) =
      run? steps (behindKey (':' :: ' ' :: rest) key bytes line tokens started) := by
  obtain ⟨c, more, rfl⟩ := List.exists_cons_of_ne_nil word.present
  have plain := word.plain c List.mem_cons_self
  have solid : c ∉ passed := not_mem_of_isPlainChar plain (by decide)
  have level : (atLine (c :: more ++ ':' :: ' ' :: rest) bytes line tokens started).indent ≤ 0 := by
    cases started <;> simp [atLine]
  rw [run?_step (skipSpace_eq_self rfl solid _) rfl (closeTo_of_le level) rfl,
    token?_plain rfl plain, plain?_atLine word]
  rfl

def behindColon (rest : List Char) (bytes line column : Nat) (tokens : List Token) : Lexer where
  cursor := ⟨rest, bytes, line, column⟩
  tokens := tokens.toArray
  indent := 0
  outer := [-1]
  keyAllowed := false
  keyStart := none
  outerStarts := []

def opening (started : Bool) : List Token := if started then [] else [.blockMappingStart]

def keyTokens (started : Bool) (key : List Char) : List Token :=
  opening started ++ [.key, .scalar .plain (String.ofList key), .value]

theorem openBlock_keyed {back : List Token} (started : Bool)
    (indent : l.indent = if started then 0 else -1) (outer : l.outer = if started then [-1] else [])
    (block : l.outerStarts = []) (keyed : l.tokens = (tokens ++ back).toArray) :
    l.openBlock 0 tokens.length .blockMappingStart =
      { l with
        tokens := (tokens ++ (opening started ++ back)).toArray
        indent := 0
        outer := [-1] } := by
  cases started with
  | false =>
      simp [openBlock, inFlow, block, indent, outer, opening, insertAt_append keyed]
  | true =>
      cases l
      simp_all [openBlock, inFlow, opening]

theorem value?_behindKey (rest key : List Char) (bytes line : Nat) (tokens : List Token)
    (started : Bool) : (behindKey (':' :: rest) key bytes line tokens started).value? =
      some (behindColon rest (bytes + byteCount key + 1) line (key.length + 1)
        (tokens ++ keyTokens started key)) := by
  have read : (behindKey (':' :: rest) key bytes line tokens started).value? =
      some (({ ((behindKey (':' :: rest) key bytes line tokens started).insertAt tokens.length
          .key).openBlock 0 tokens.length .blockMappingStart with
        keyStart := none }.allowKey false).take 1 .value) := rfl
  rw [read, insertAt_append rfl, openBlock_keyed started rfl rfl rfl rfl]
  simp [allowKey, take, skipMany, push, behindColon, keyTokens, behindKey]
  rfl

theorem run?_colon (short : byteCount key ≤ 1024) (steps : Nat) :
    run? (steps + 1) (behindKey (':' :: ' ' :: rest) key bytes line tokens started) =
      run? steps (behindColon (' ' :: rest) (bytes + byteCount key + 1) line (key.length + 1)
        (tokens ++ keyTokens started key)) := by
  have fresh : (behindKey (':' :: ' ' :: rest) key bytes line tokens started).dropAllStale? =
      some (behindKey (':' :: ' ' :: rest) key bytes line tokens started) := by
    simp [dropAllStale?, behindKey, dropStale?, KeyStart.isStale, Nat.not_lt.mpr short]
  have level :
      (behindKey (':' :: ' ' :: rest) key bytes line tokens started).indent ≤ key.length := by
    cases started <;> simp [behindKey]
  have token :
      (behindKey (':' :: ' ' :: rest) key bytes line tokens started).token? ':' (' ' :: rest) =
        (behindKey (':' :: ' ' :: rest) key bytes line tokens started).value? := by
    simp [token?, Cursor.atDocumentMark, Cursor.isGap, isSpace, isBlank, behindKey]
  rw [run?_step (skipSpace_eq_self rfl (by decide) _) fresh (closeTo_of_le level) rfl, token,
    value?_behindKey]
  rfl

theorem run?_value {column : Nat} (word : PlainWord value)
    (next : ∀ c ∈ rest.head?, isPlainChar c = true) (steps : Nat) :
    run? (steps + 1) (behindColon (' ' :: (value ++ '\n' :: rest)) bytes line column tokens) =
      run? steps (atLine rest (bytes + 1 + byteCount value + 1) (line + 1)
        (tokens ++ [.scalar .plain (String.ofList value)]) true) := by
  obtain ⟨c, more, rfl⟩ := List.exists_cons_of_ne_nil word.present
  have plain := word.plain c List.mem_cons_self
  have solid : c ∉ passed := not_mem_of_isPlainChar plain (by decide)
  have skipped : ∀ steps,
      (behindColon (' ' :: (c :: more ++ '\n' :: rest)) bytes line column tokens).skipSpace
        (steps + 1) =
      behindColon (c :: more ++ '\n' :: rest) (bytes + 1) line (column + 1) tokens :=
    fun steps => skipSpace_eq_self rfl solid steps
  have read :
      (behindColon (c :: more ++ '\n' :: rest) (bytes + 1) line (column + 1) tokens).plain? =
      some (atLine rest (bytes + 1 + byteCount (c :: more) + 1) (line + 1)
        (tokens ++ [.scalar .plain (String.ofList (c :: more))]) true) := by
    rw [plain?_eq rfl rfl (plain?_value rfl word (show (0 : Int) < 0 + 1 by decide) next)]
    simp [behindColon, atLine, finish, allowKey, push]
  rw [run?_step (skipped _) rfl (closeTo_of_le (Int.natCast_nonneg _)) rfl, token?_plain rfl plain,
    read]
  rfl

theorem run?_end (steps : Nat) :
    run? (steps + 1) (atLine [] bytes line tokens true) =
      some (tokens ++ [Token.blockEnd]).toArray := by
  simp [run?, atLine, skipSpace, dropAllStale?, dropStale?, closeTo, closeBlocks, inFlow,
    forgetKey?]

end Lexer

/-! ### Lines -/

def lineText (pair : String × String) : List Char :=
  pair.1.toList ++ ':' :: ' ' :: (pair.2.toList ++ ['\n'])

def pairTokens (pair : String × String) : List Token :=
  [.key, .scalar .plain pair.1, .value, .scalar .plain pair.2]

/-- Words that can stand on one line as they are. -/
structure PlainPair (pair : String × String) : Prop where
  key : PlainWord pair.1.toList
  short : byteCount pair.1.toList ≤ 1024
  value : PlainWord pair.2.toList

variable {pair : String × String} {pairs : List (String × String)}

theorem isPlainChar_of_mem_head? (plain : ∀ pair ∈ pairs, PlainPair pair) :
    ∀ c ∈ (pairs.flatMap lineText).head?, isPlainChar c = true := by
  intro c first
  cases pairs with
  | nil => cases first
  | cons pair pairs =>
      have key := (plain pair List.mem_cons_self).key
      obtain ⟨d, more, spelt⟩ := List.exists_cons_of_ne_nil key.present
      rw [List.flatMap_cons, lineText, spelt] at first
      obtain rfl : d = c := Option.some.inj first
      exact key.plain d (by rw [spelt]; exact List.mem_cons_self)

namespace Lexer

theorem run?_line (plain : PlainPair pair) (next : ∀ c ∈ rest.head?, isPlainChar c = true)
    (bytes line : Nat) (tokens : List Token) (started : Bool) (steps : Nat) :
    ∃ passed, run? (steps + 3) (atLine (lineText pair ++ rest) bytes line tokens started) =
      run? steps (atLine rest passed (line + 1) (tokens ++ (opening started ++ pairTokens pair))
        true) := by
  have spelt : lineText pair ++ rest =
      pair.1.toList ++ ':' :: ' ' :: (pair.2.toList ++ '\n' :: rest) := by
    simp [lineText]
  refine ⟨bytes + byteCount pair.1.toList + 1 + 1 + byteCount pair.2.toList + 1, ?_⟩
  rw [spelt, run?_key plain.key, run?_colon plain.short, run?_value plain.value next]
  simp [keyTokens, pairTokens]

theorem run?_lines (plain : ∀ pair ∈ pairs, PlainPair pair) (bytes line : Nat) (tokens : List Token)
    (steps : Nat) :
    run? (steps + 1 + 3 * pairs.length) (atLine (pairs.flatMap lineText) bytes line tokens true) =
      some (tokens ++ pairs.flatMap pairTokens ++ [Token.blockEnd]).toArray := by
  induction pairs generalizing bytes line tokens with
  | nil => simp [run?_end]
  | cons pair pairs ih =>
      obtain ⟨first, others⟩ := List.forall_mem_cons.mp plain
      obtain ⟨passed, read⟩ := run?_line first (isPlainChar_of_mem_head? others) bytes line tokens
        true (steps + 1 + 3 * pairs.length)
      rw [List.flatMap_cons, List.length_cons, Nat.mul_succ, ← Nat.add_assoc, read, ih others]
      simp [opening]

end Lexer

theorem isAllowed_lines (plain : ∀ pair ∈ pairs, PlainPair pair) :
    (pairs.flatMap lineText).all isAllowed = true := by
  rw [List.all_flatMap, List.all_eq_true]
  intro pair member
  have words := plain pair member
  have allowed : ∀ {w}, PlainWord w → w.all isAllowed = true := fun word =>
    List.all_eq_true.mpr fun c inside => isAllowed_of_isPlainChar (word.plain c inside)
  simp [lineText, allowed words.key, allowed words.value]
  decide

theorem length_le_lines (pairs : List (String × String)) :
    3 * pairs.length ≤ (pairs.flatMap lineText).length := by
  induction pairs with
  | nil => exact Nat.le_refl 0
  | cons pair pairs ih =>
      rw [List.flatMap_cons, List.length_append, List.length_cons]
      simp only [lineText, List.length_append, List.length_cons]
      omega

theorem tokens?_lines {s : String} (plain : ∀ pair ∈ pairs, PlainPair pair) (present : pairs ≠ [])
    (spelt : s.toList = pairs.flatMap lineText) :
    tokens? s = some (.blockMappingStart :: (pairs.flatMap pairTokens ++ [.blockEnd])).toArray := by
  have start : Lexer.start (pairs.flatMap lineText) =
      Lexer.atLine (pairs.flatMap lineText) 0 0 [] false := rfl
  obtain ⟨spare, enough⟩ := Nat.exists_eq_add_of_le' (length_le_lines pairs)
  rw [tokens?, spelt, if_pos (isAllowed_lines plain), enough, start]
  obtain ⟨pair, pairs, rfl⟩ := List.exists_cons_of_ne_nil present
  obtain ⟨first, others⟩ := List.forall_mem_cons.mp plain
  obtain ⟨passed, read⟩ := Lexer.run?_line first (isPlainChar_of_mem_head? others) 0 0 [] false
    (spare + 1 + 3 * pairs.length)
  have steps : spare + 3 * (pair :: pairs).length + 1 = spare + 1 + 3 * pairs.length + 3 := by
    rw [List.length_cons]
    omega
  rw [steps, List.flatMap_cons, read, Lexer.run?_lines others]
  simp [Lexer.opening]

end CallOrder.Yaml
