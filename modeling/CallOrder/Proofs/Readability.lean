import CallOrder.Proofs.Compilation
import CallOrder.Proofs.Consistency
import CallOrder.Proofs.Regrouping
import CallOrder.Proofs.Text.Suffix

/-!
The texts of patterns can be read. Main statement: patterns with the same text are the same but for
the names of bases, the nesting of sequences and the quantifiers of one suffix, so that they accept
the same words.
-/

namespace CallOrder.Pattern

def marks : List Char := [' ', '(', ')', '|', '\x7b', '\x7d', '?', ',']

/-- No token of the pattern is without text or has one of the marks in it. -/
def Legible (p : Pattern) : Prop :=
  ∀ leaf ∈ p.leaves, leaf.2 ≠ "" ∧ ∀ c ∈ leaf.2.toList, c ∉ marks

instance (p : Pattern) : Decidable p.Legible :=
  decidable_of_iff
    (p.leaves.all fun leaf => leaf.2 != "" && leaf.2.toList.all fun c => !marks.contains c) <| by
      simp [Legible]

/-- The pattern as its text shows it, put behind what is there already. -/
def shownBehind (before : Option Pattern) : (p : Pattern) → Pattern
  | terminal _ token => Chain.sequence.join before (terminal "" token)
  | sequence left right => right.shownBehind (some (left.shownBehind before))
  | alternative left right =>
    Chain.sequence.join before (alternative (left.shownBehind none) (right.shownBehind none))
  | quantified child kind bound =>
    Chain.sequence.join before
      (quantified (child.shownBehind none) (Mark.of kind bound).kind (Mark.of kind bound).bound)

/-- The pattern as its text shows it: without the names of bases, each chain of sequences leaning to
the left, and the quantifiers of one suffix made one. -/
def shown (p : Pattern) : Pattern := p.shownBehind none

variable {p q left right child : Pattern} {kind : Quantifier} {bound : Option Bound}
  {u v : List Char}

theorem legible_append (leaves : p.leaves = left.leaves ++ right.leaves) (legible : p.Legible) :
    left.Legible ∧ right.Legible :=
  ⟨fun leaf member => legible leaf (leaves ▸ List.mem_append_left _ member),
    fun leaf member => legible leaf (leaves ▸ List.mem_append_right _ member)⟩

theorem Legible.operands (legible : p.Legible) :
    ∀ x ∈ p.operands .sequence, x.Legible ∧ x.isAtomic = true := by
  induction p with
  | terminal base token => exact List.forall_mem_singleton.mpr ⟨legible, rfl⟩
  | sequence left right ihl ihr =>
      have halves := legible_append (leaves_sequence left right) legible
      exact List.forall_mem_append.mpr ⟨ihl halves.1, ihr halves.2⟩
  | alternative left right ihl ihr => exact List.forall_mem_singleton.mpr ⟨legible, rfl⟩
  | quantified child kind bound ih => exact List.forall_mem_singleton.mpr ⟨legible, rfl⟩

theorem operands_of_isAtomic (atomic : p.isAtomic = true) : p.operands .sequence = [p] := by
  cases p with
  | sequence left right => cases atomic
  | _ => rfl

theorem shown_quantified (child : Pattern) (kind : Quantifier) (bound : Option Bound) :
    (quantified child kind bound).shown =
      quantified child.shown (Mark.of kind bound).kind (Mark.of kind bound).bound := rfl

theorem shownBehind_eq_foldl (before : Option Pattern) (p : Pattern) :
    some (p.shownBehind before) = ((p.operands .sequence).map shown).foldl
      (fun before q => some (Chain.sequence.join before q)) before := by
  induction p generalizing before with
  | terminal base token => rfl
  | sequence left right ihl ihr =>
      rw [operands, List.map_append, List.foldl_append, ← ihl, ← ihr]
      rfl
  | alternative left right ihl ihr => rfl
  | quantified child kind bound ih => rfl

theorem shown_eq_of_operands
    (same : (p.operands .sequence).map shown = (q.operands .sequence).map shown) :
    p.shown = q.shown := by
  have folded := shownBehind_eq_foldl none p
  rw [same, ← shownBehind_eq_foldl none q] at folded
  exact Option.some.inj folded

def backwards (p : Pattern) : List Char := p.text.toList.reverse

def enclosed (p : Pattern) : List Char :=
  if p.isAtomic then p.backwards else ')' :: p.backwards ++ ['(']

theorem backwards_terminal (base : Base) (token : Token) :
    (terminal base token).backwards = token.toList.reverse := by
  simp [backwards, text, textAfter]

theorem backwards_sequence (left right : Pattern) :
    (sequence left right).backwards = right.backwards ++ ' ' :: left.backwards := by
  simp [backwards, text, textAfter, textAfter_eq right (_ ++ _)]

theorem backwards_alternative (left right : Pattern) :
    (alternative left right).backwards =
      ')' :: right.backwards ++ '|' :: left.backwards ++ ['('] := by
  simp [backwards, text, textAfter, textAfter_eq right (_ ++ _), textAfter_eq left "("]

theorem backwards_quantified (child : Pattern) (kind : Quantifier) (bound : Option Bound) :
    (quantified child kind bound).backwards = (Mark.of kind bound).backwards ++ child.enclosed := by
  rw [← Mark.backwards_of, enclosed]
  simp only [backwards, text, textAfter]
  split
  · simp
  · simp [textAfter_eq child "(", text]

/-- The texts of the operands of a chain, from the last one on, with a blank in front of each. -/
def chained (operands : List Pattern) (rest : List Char) : List Char :=
  operands.foldr (fun x rest => ' ' :: (x.backwards ++ rest)) rest

theorem cons_backwards_append (p : Pattern) (rest : List Char) :
    ' ' :: (p.backwards ++ rest) = chained (p.operands .sequence).reverse rest := by
  induction p generalizing rest with
  | terminal base token => rfl
  | sequence left right ihl ihr =>
      rw [operands, List.reverse_append, chained, List.foldr_append, ← chained, ← chained, ← ihl,
        ← ihr, backwards_sequence, List.append_assoc, List.cons_append]
  | alternative left right ihl ihr => rfl
  | quantified child kind bound ih => rfl

/-- What the last character of a text is part of. -/
inductive Lead where
  | token
  | parenthesis
  | suffix

def Lead.of (c : Char) : Lead :=
  if c = ')' then parenthesis else if c = '?' ∨ c = '\x7d' then suffix else token

def lead : Pattern → Lead
  | terminal _ _ => .token
  | sequence _ right => right.lead
  | alternative _ _ => .parenthesis
  | quantified _ _ _ => .suffix

theorem backwards_eq_cons (legible : p.Legible) :
    ∃ c rest, p.backwards = c :: rest ∧ Lead.of c = p.lead := by
  induction p with
  | terminal base token =>
      have plain := legible (base, token) List.mem_cons_self
      rw [backwards_terminal]
      cases spelt : token.toList.reverse with
      | nil =>
          have empty := String.toList_eq_nil_iff.mp (List.reverse_eq_nil_iff.mp spelt)
          exact absurd empty plain.1
      | cons c rest =>
          have unmarked : c ∉ marks := plain.2 c (by rw [← List.mem_reverse, spelt]; simp)
          exact ⟨c, rest, rfl, by simp_all [marks, Lead.of, lead]⟩
  | sequence left right ihl ihr =>
      obtain ⟨c, rest, starts, leads⟩ :=
        ihr (legible_append (leaves_sequence left right) legible).2
      exact ⟨c, _, by rw [backwards_sequence, starts, List.cons_append], leads⟩
  | alternative left right ihl ihr => exact ⟨')', _, backwards_alternative left right, rfl⟩
  | quantified child kind bound ih =>
      rw [backwards_quantified, Mark.backwards]
      split
      · exact ⟨'?', _, rfl, rfl⟩
      · exact ⟨'\x7d', _, rfl, rfl⟩

theorem lead_eq (legible : p.Legible) (legibleToo : q.Legible)
    (same : p.backwards ++ u = q.backwards ++ v) : p.lead = q.lead := by
  obtain ⟨c, rest, starts, leads⟩ := backwards_eq_cons legible
  obtain ⟨c', rest', startsToo, leadsToo⟩ := backwards_eq_cons legibleToo
  rw [starts, startsToo] at same
  rw [← leads, ← leadsToo, (List.cons.inj same).1]

theorem lead_eq_parenthesis (legible : p.Legible) (same : p.backwards ++ u = ')' :: v) :
    p.lead = .parenthesis := by
  obtain ⟨c, rest, starts, leads⟩ := backwards_eq_cons legible
  rw [starts] at same
  rw [← leads, (List.cons.inj same).1]
  rfl

def StartsIn (these rest : List Char) : Prop := ∀ c ∈ rest.head?, c ∈ these

theorem startsIn_nil (these : List Char) : StartsIn these [] := by simp [StartsIn]

theorem startsIn_cons {these : List Char} {c : Char} (among : c ∈ these) (rest : List Char) :
    StartsIn these (c :: rest) := by simpa [StartsIn] using among

/-- What a whole pattern stands behind, from its end: nothing, or that which opens a parenthesis or
goes on with it. -/
def Opens (rest : List Char) : Prop := StartsIn ['(', '|'] rest

def Precedes (rest : List Char) : Prop := StartsIn [' ', '(', '|'] rest

theorem opens_open (rest : List Char) : Opens ('(' :: rest) := startsIn_cons (by simp) rest

theorem opens_bar (rest : List Char) : Opens ('|' :: rest) := startsIn_cons (by simp) rest

theorem Opens.ne_blank (opens : Opens u) (rest : List Char) : u ≠ ' ' :: rest := by
  rintro rfl
  simp [Opens, StartsIn] at opens

theorem Opens.chained (opens : Opens u) (operands : List Pattern) :
    Precedes (chained operands u) := by
  cases operands with
  | nil => exact fun c first => List.mem_cons_of_mem _ (opens c first)
  | cons x operands => exact startsIn_cons List.mem_cons_self _

/-- No other operand reads as `x` does, and no sequence in parentheses. -/
structure Determined (x : Pattern) : Prop where
  operand : ∀ y : Pattern, y.Legible → y.isAtomic = true → ∀ u v : List Char, Precedes u →
    Precedes v → x.backwards ++ u = y.backwards ++ v → x.shown = y.shown ∧ u = v
  group : ∀ q : Pattern, q.Legible → ∀ u v : List Char,
    x.backwards ++ u ≠ ')' :: (q.backwards ++ '(' :: v)

theorem chained_inj {xs ys : List Pattern} (determined : ∀ x ∈ xs, x.Determined)
    (legible : ∀ y ∈ ys, y.Legible ∧ y.isAtomic = true) (opens : Opens u) (opensToo : Opens v)
    (same : chained xs u = chained ys v) : xs.map shown = ys.map shown ∧ u = v := by
  induction xs generalizing ys with
  | nil =>
      cases ys with
      | nil => exact ⟨rfl, same⟩
      | cons y ys => exact absurd same (opens.ne_blank _)
  | cons x xs ih =>
      cases ys with
      | nil => exact absurd same.symm (opensToo.ne_blank _)
      | cons y ys =>
          obtain ⟨first, further⟩ := List.forall_mem_cons.mp determined
          obtain ⟨⟨legibleFirst, atomic⟩, legibleRest⟩ := List.forall_mem_cons.mp legible
          obtain ⟨shownSame, rest⟩ := first.operand y legibleFirst atomic _ _ (opens.chained xs)
            (opensToo.chained ys) (List.cons.inj same).2
          obtain ⟨restSame, ends⟩ := ih further legibleRest rest
          exact ⟨by rw [List.map_cons, List.map_cons, shownSame, restSame], ends⟩

section Reading

variable (determined : ∀ x ∈ p.operands .sequence, x.Determined) (legible : q.Legible)

include determined legible

theorem backwards_append_inj (opens : Opens u) (opensToo : Opens v)
    (same : p.backwards ++ u = q.backwards ++ v) : p.shown = q.shown ∧ u = v := by
  have chains : ' ' :: (p.backwards ++ u) = ' ' :: (q.backwards ++ v) := by rw [same]
  rw [cons_backwards_append, cons_backwards_append] at chains
  obtain ⟨reversed, ends⟩ := chained_inj
    (fun x member => determined x (List.mem_reverse.mp member))
    (fun y member => legible.operands y (List.mem_reverse.mp member)) opens opensToo chains
  rw [List.map_reverse, List.map_reverse, List.reverse_inj] at reversed
  exact ⟨shown_eq_of_operands reversed, ends⟩

theorem opening_inj {c c' : Char} (opens : Opens (c :: u)) (opensToo : Opens (c' :: v))
    (same : p.backwards ++ c :: u = q.backwards ++ c' :: v) : c = c' := by
  obtain ⟨_, ends⟩ := backwards_append_inj determined legible opens opensToo same
  exact (List.cons.inj ends).1

theorem enclosed_append_inj (begins : Precedes u) (beginsToo : Precedes v)
    (same : p.enclosed ++ u = q.enclosed ++ v) : p.shown = q.shown ∧ u = v := by
  by_cases atomic : p.isAtomic
  · have single : p.Determined := determined p (by simp [operands_of_isAtomic atomic])
    by_cases atomicToo : q.isAtomic
    · rw [enclosed, enclosed, if_pos atomic, if_pos atomicToo] at same
      exact single.operand q legible atomicToo u v begins beginsToo same
    · rw [enclosed, enclosed, if_pos atomic, if_neg atomicToo] at same
      exact absurd (by simpa using same) (single.group q legible u v)
  · by_cases atomicToo : q.isAtomic
    · rw [enclosed, enclosed, if_neg atomic, if_pos atomicToo] at same
      have leads := lead_eq_parenthesis legible same.symm
      -- only alternatives have parentheses of their own
      cases q with
      | alternative left right =>
          have inner := (legible_append (leaves_alternative left right) legible).2
          simp only [backwards_alternative, List.cons_append, List.append_assoc, List.cons.injEq,
            true_and] at same
          have wrong := opening_inj determined inner (opens_open _) (opens_bar _) same
          exact absurd wrong (by decide)
      | terminal base token => cases leads
      | sequence left right => cases atomicToo
      | quantified child kind bound => cases leads
    · rw [enclosed, enclosed, if_neg atomic, if_neg atomicToo] at same
      simp only [List.cons_append, List.append_assoc, List.cons.injEq, true_and] at same
      obtain ⟨shownSame, ends⟩ :=
        backwards_append_inj determined legible (opens_open _) (opens_open _) same
      exact ⟨shownSame, (List.cons.inj ends).2⟩

end Reading

theorem determined_terminal {base : Base} {token : Token}
    (legible : (terminal base token).Legible) : (terminal base token).Determined where
  operand y legibleToo atomic u v begins beginsToo same := by
    have leads := lead_eq legible legibleToo same
    cases y with
    | terminal base' token' =>
        have unmarked : ∀ {base token}, (terminal base token).Legible →
            ∀ c ∈ token.toList.reverse, c ∉ marks := by
          intro base token legible c member
          exact (legible _ List.mem_cons_self).2 c (List.mem_reverse.mp member)
        have marked : ∀ {rest}, Precedes rest → ∀ c ∈ rest.head?, ¬ c ∉ marks := by
          intro rest begins c first unmarked
          have among := begins c first
          simp_all [marks]
        rw [backwards_terminal, backwards_terminal] at same
        obtain ⟨tokens, ends⟩ := append_inj_of_boundary (unmarked legible) (unmarked legibleToo)
          (marked begins) (marked beginsToo) same
        have spelt := String.toList_injective (List.reverse_injective tokens)
        exact ⟨congrArg (terminal "") spelt, ends⟩
    | sequence left right => cases atomic
    | alternative left right => cases leads
    | quantified child kind bound => cases leads
  group q legibleToo u v same := by cases lead_eq_parenthesis legible same

theorem determined_alternative (legible : (alternative left right).Legible)
    (leftDetermined : ∀ x ∈ left.operands .sequence, x.Determined)
    (rightDetermined : ∀ x ∈ right.operands .sequence, x.Determined) :
    (alternative left right).Determined where
  operand y legibleToo atomic u v begins beginsToo same := by
    have leads := lead_eq legible legibleToo same
    cases y with
    | terminal base token => cases leads
    | sequence left right => cases atomic
    | alternative left' right' =>
        obtain ⟨leftLegible, rightLegible⟩ :=
          legible_append (leaves_alternative left' right') legibleToo
        simp only [backwards_alternative, List.cons_append, List.append_assoc, List.cons.injEq,
          true_and, List.nil_append] at same
        obtain ⟨rights, same⟩ :=
          backwards_append_inj rightDetermined rightLegible (opens_bar _) (opens_bar _) same
        obtain ⟨lefts, same⟩ := backwards_append_inj leftDetermined leftLegible (opens_open _)
          (opens_open _) (List.cons.inj same).2
        exact ⟨congrArg₂ alternative lefts rights, (List.cons.inj same).2⟩
    | quantified child kind bound => cases leads
  group q legibleToo u v same := by
    simp only [backwards_alternative, List.cons_append, List.append_assoc, List.cons.injEq,
      true_and] at same
    have wrong := opening_inj rightDetermined legibleToo (opens_bar _) (opens_open _) same
    exact absurd wrong (by decide)

theorem determined_quantified (legible : (quantified child kind bound).Legible)
    (determined : ∀ x ∈ child.operands .sequence, x.Determined) :
    (quantified child kind bound).Determined where
  operand y legibleToo atomic u v begins beginsToo same := by
    have leads := lead_eq legible legibleToo same
    cases y with
    | terminal base token => cases leads
    | sequence left right => cases atomic
    | alternative left right => cases leads
    | quantified child' kind' bound' =>
        have inner : child'.Legible := legibleToo
        rw [backwards_quantified, backwards_quantified, List.append_assoc,
          List.append_assoc] at same
        obtain ⟨marks, same⟩ := Mark.backwards_append_inj same
        obtain ⟨inside, ends⟩ := enclosed_append_inj determined inner begins beginsToo same
        refine ⟨?_, ends⟩
        rw [shown_quantified, shown_quantified, inside, marks]
  group q legibleToo u v same := by cases lead_eq_parenthesis legible same

theorem Legible.determined (legible : p.Legible) : ∀ x ∈ p.operands .sequence, x.Determined := by
  -- a sequence is read by its operands, so the hypotheses are about those of the parts
  induction p with
  | terminal base token => exact List.forall_mem_singleton.mpr (determined_terminal legible)
  | sequence left right ihl ihr =>
      have halves := legible_append (leaves_sequence left right) legible
      exact List.forall_mem_append.mpr ⟨ihl halves.1, ihr halves.2⟩
  | alternative left right ihl ihr =>
      have halves := legible_append (leaves_alternative left right) legible
      exact List.forall_mem_singleton.mpr
        (determined_alternative legible (ihl halves.1) (ihr halves.2))
  | quantified child kind bound ih =>
      exact List.forall_mem_singleton.mpr (determined_quantified legible (ih legible))

theorem shown_eq_of_text_eq (legible : p.Legible) (legibleToo : q.Legible)
    (same : p.text = q.text) : p.shown = q.shown := by
  have read : p.backwards ++ [] = q.backwards ++ [] := by rw [backwards, backwards, same]
  exact (backwards_append_inj legible.determined legibleToo (startsIn_nil _) (startsIn_nil _)
    read).1

theorem textAfter_join (before : Option Pattern) (p : Pattern) (front : String) :
    (Chain.sequence.join before p).textAfter front =
      p.textAfter (before.elim front fun before => before.textAfter front ++ " ") := by
  cases before <;> rfl

theorem isAtomic_join (before : Option Pattern) (p : Pattern) :
    (Chain.sequence.join before p).isAtomic = (before.isNone && p.isAtomic) := by
  cases before <;> rfl

theorem isAtomic_shownBehind (before : Option Pattern) (p : Pattern) :
    (p.shownBehind before).isAtomic = (before.isNone && p.isAtomic) := by
  induction p generalizing before with
  | terminal base token => exact isAtomic_join before _
  | sequence left right ihl ihr => exact (ihr _).trans (Bool.and_false _).symm
  | alternative left right ihl ihr => exact isAtomic_join before _
  | quantified child kind bound ih => exact isAtomic_join before _

theorem textAfter_shownBehind (p : Pattern) (before : Option Pattern) (front : String) :
    (p.shownBehind before).textAfter front =
      p.textAfter (before.elim front fun before => before.textAfter front ++ " ") := by
  induction p generalizing before front with
  | terminal base token => simp [shownBehind, textAfter_join, textAfter]
  | sequence left right ihl ihr => simp [shownBehind, ihl, ihr, textAfter]
  | alternative left right ihl ihr => simp [shownBehind, textAfter_join, textAfter, ihl, ihr]
  | quantified child kind bound ih =>
      simp [shownBehind, textAfter_join, textAfter, ih, isAtomic_shownBehind, Mark.suffix_of]

theorem text_eq_iff (legible : p.Legible) (legibleToo : q.Legible) :
    p.text = q.text ↔ p.shown = q.shown := by
  have shows : ∀ p : Pattern, p.shown.text = p.text := fun p => textAfter_shownBehind p none ""
  refine ⟨shown_eq_of_text_eq legible legibleToo, ?_⟩
  intro same
  calc
    p.text = p.shown.text := (shows p).symm
    _ = q.shown.text := by rw [same]
    _ = q.text := shows q

theorem words_join (before : Option Pattern) (p : Pattern) :
    (Chain.sequence.join before p).words = before.elim 1 words * p.words := by
  cases before with
  | none => exact (one_mul p.words).symm
  | some before => rfl

section Words

variable {limits limits' : Limits} {d e : Dfa}

theorem repeatedWords_mark (suits : Suits limits kind bound) (words : Language Token) :
    repeatedWords words (Mark.of kind bound).kind (Mark.of kind bound).bound =
      repeatedWords words kind bound := by
  match kind, bound with
  | .maybe, none | .option, none => rfl
  | .exactly, some (.count n) | .atLeast, some (.count n) => rfl
  | .between, some (.range min max) => rfl

theorem mem_between_zero (words : Language Token) (word : List Token) :
    word ∈ repeatedWords words .between (some (.range 0 0)) ↔ word = [] := by
  constructor
  · rintro ⟨k, _, none, member⟩
    rw [Nat.le_zero.mp none, pow_zero] at member
    exact member
  · intro empty
    exact ⟨0, le_refl 0, le_refl 0, empty⟩

/-- What is repeated no times at all may be anything. -/
theorem repeatedWords_congr (suits : Suits limits kind bound) {words other : Language Token}
    (same : copies kind bound ≠ 0 → other = words) :
    repeatedWords other kind bound = repeatedWords words kind bound := by
  by_cases built : copies kind bound = 0
  · rcases bound with _ | (n | ⟨min, max⟩)
    · cases kind with
      | maybe | option => cases built
      | exactly | between | atLeast => cases suits
    · cases kind with
      | exactly =>
          obtain rfl : n = 0 := built
          rfl
      | atLeast => cases built
      | between | maybe | option => cases suits
    · cases kind with
      | between =>
          obtain rfl : max = 0 := built
          obtain rfl : min = 0 := Nat.le_zero.mp suits.1
          ext word
          rw [mem_between_zero, mem_between_zero]
      | exactly | atLeast | maybe | option => cases suits
  · rw [same built]

theorem words_shownBehind (consistent : p.ConsistentAsBuilt limits) (before : Option Pattern) :
    (p.shownBehind before).words = before.elim 1 words * p.words := by
  induction p generalizing before with
  | terminal base token => rw [shownBehind, words_join, words, words]
  | sequence left right ihl ihr =>
      rw [shownBehind, ihr consistent.2, Option.elim_some, ihl consistent.1, words, mul_assoc]
  | alternative left right ihl ihr =>
      rw [shownBehind, words_join, words, words, ihl consistent.1, ihr consistent.2]
      simp
  | quantified child kind bound ih =>
      have inside : copies kind bound ≠ 0 → (child.shownBehind none).words = child.words := by
        intro built
        rw [ih (consistent.1 built), Option.elim_none, one_mul]
      rw [shownBehind, words_join, words, words, repeatedWords_mark consistent.2,
        repeatedWords_congr consistent.2 inside]

theorem words_shown (consistent : p.ConsistentAsBuilt limits) : p.shown.words = p.words := by
  rw [shown, words_shownBehind consistent, Option.elim_none, one_mul]

theorem consistentAsBuilt_of_compile (compiled : p.compile limits = .ok d) :
    p.ConsistentAsBuilt limits := by
  obtain ⟨n, built, _⟩ := compile_ok compiled
  exact consistentAsBuilt_of_toNfa built

/-- The text of a pattern is that of another one exactly if the two differ in nothing but the names
of bases, the nesting of sequences and the quantifiers of one suffix. If both compile then they
accept the same words. -/
theorem text_unambiguous (legible : p.Legible) (legibleToo : q.Legible)
    (first : p.compile limits = .ok d) (second : q.compile limits' = .ok e) :
    (p.text = q.text ↔ p.shown = q.shown) ∧
    (p.text = q.text → p.words = q.words ∧ ∀ word, d.accepts word = e.accepts word) := by
  have readable := text_eq_iff legible legibleToo
  refine ⟨readable, ?_⟩
  intro same
  have words : p.words = q.words := by
    calc
      p.words = p.shown.words := (words_shown (consistentAsBuilt_of_compile first)).symm
      _ = q.shown.words := by rw [readable.mp same]
      _ = q.words := words_shown (consistentAsBuilt_of_compile second)
  refine ⟨words, ?_⟩
  intro word
  rw [Bool.eq_iff_iff, accepts_compile_iff first, accepts_compile_iff second, words]

def locked : Pattern :=
  .sequence (.sequence (.quantified (.terminal "file" "lock") .maybe none)
    (.terminal "file" "open")) dropped

def relocked : Pattern :=
  .sequence (.quantified (.terminal "f" "lock") .option none)
    (.sequence (.terminal "f" "open")
      (.quantified (.quantified (.terminal "f" "a") .atLeast (some (.range 3 1)))
        .exactly (some (.count 0))))

theorem locked_unambiguous : ∃ d e, locked.Legible ∧ relocked.Legible ∧
    locked.compile .standard = .ok d ∧ relocked.compile ⟨20, 10, 1, 4⟩ = .ok e ∧
    locked.text = "lock? open a\x7b3,1\x7d\x7b0\x7d" ∧ locked.text = relocked.text ∧
    locked.shown = relocked.shown ∧ d.accepts ["lock", "open"] = true ∧
    e.accepts ["lock", "open"] = true := by
  have compiles : (locked.compile .standard).toOption.any (·.accepts ["lock", "open"]) := by
    decide +kernel
  have compilesToo : (relocked.compile ⟨20, 10, 1, 4⟩).toOption.any (0 < ·.size) := by
    decide +kernel
  obtain ⟨d, first, accepted⟩ := exists_eq_ok compiles
  obtain ⟨e, second, _⟩ := exists_eq_ok compilesToo
  have legible : locked.Legible := by decide +kernel
  have legibleToo : relocked.Legible := by decide +kernel
  have shows : locked.shown = relocked.shown := by decide
  obtain ⟨readable, alike⟩ := text_unambiguous legible legibleToo first second
  have same := readable.mpr shows
  refine ⟨d, e, legible, legibleToo, first, second, by decide +kernel, same, shows, accepted, ?_⟩
  rw [← (alike same).2, accepted]

end Words

end CallOrder.Pattern
