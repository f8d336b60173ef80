import CallOrder.Proofs.Compilation
import CallOrder.Proofs.Script
import CallOrder.RuleDocument.Basic

/-! What a rule document says: which documents are rules at all, and which words they allow. -/

namespace CallOrder

/-- The words of a list in some form, where `members` are the words of each of its entries. Their
product is one word of each after the other, their sum any word of any of them. -/
def Form.words (form : Form) (members : List (Language Token)) : Language Token :=
  match form with
  | group => members.prod
  | set => members.sum
  | maybe | option => members.prod + 1
  | oneOrMore => {word | ∃ k, 1 ≤ k ∧ word ∈ members.prod ^ k}
  | zeroOrMore => {word | ∃ k, word ∈ members.prod ^ k}
  | exactly n => members.prod ^ n
  | atLeast n => {word | ∃ k, n ≤ k ∧ word ∈ members.prod ^ k}
  | between min max => {word | ∃ k, min ≤ k ∧ k ≤ max ∧ word ∈ members.prod ^ k}

namespace Entry

mutual

def tokens : Entry → List Token
  | token name => [name]
  | block _ entries => tokensIn entries

def tokensIn : List Entry → List Token
  | [] => []
  | entry :: entries => entry.tokens ++ tokensIn entries

end

mutual

def lists : Entry → List (List Entry)
  | token _ => []
  | block _ entries => entries :: listsIn entries

def listsIn : List Entry → List (List Entry)
  | [] => []
  | entry :: entries => entry.lists ++ listsIn entries

end

mutual

def words : Entry → Language Token
  | token name => {[name]}
  | block form entries => form.words (wordsIn entries)

def wordsIn : List Entry → List (Language Token)
  | [] => []
  | entry :: entries => entry.words :: wordsIn entries

end

end Entry

namespace RuleDocument

def tokens (d : RuleDocument) : List Token := Entry.tokensIn d.order

def Declared (d : RuleDocument) : Prop := ∀ token ∈ d.tokens, token ∈ d.operations

instance (d : RuleDocument) : Decidable d.Declared :=
  inferInstanceAs (Decidable (∀ token ∈ d.tokens, token ∈ d.operations))

def lists (d : RuleDocument) : List (List Entry) := d.order :: Entry.listsIn d.order

def words (d : RuleDocument) : Language Token := (Entry.wordsIn d.order).prod

end RuleDocument

namespace Pattern

def repeatGroup (kind : Quantifier) (bound : Option Bound) (members : List Pattern) :
    Except ConstructionError Pattern := do
  (← group members).quantify kind bound

theorem repeatGroup_ok {members : List Pattern} (given : members ≠ []) (kind : Quantifier)
    (bound : Option Bound) (bounded : (kind.requiresBound && bound.isNone) = false) :
    ∃ p, repeatGroup kind bound members = .ok p ∧
      p.words = repeatedWords (members.map words).prod kind bound := by
  obtain ⟨child, folded, childWords⟩ := group_ok given
  refine ⟨.quantified child kind bound, ?_, by rw [words, childWords]⟩
  rw [repeatGroup, folded, ok_bind, quantify, bounded]
  rfl

end Pattern

namespace Form

def fold : Form → List Pattern → Except ConstructionError Pattern
  | group => Pattern.group
  | set => Pattern.set
  | maybe => Pattern.repeatGroup .maybe none
  | option => Pattern.repeatGroup .option none
  | oneOrMore => Pattern.repeatGroup .atLeast (some (.count 1))
  | zeroOrMore => Pattern.repeatGroup .atLeast (some (.count 0))
  | exactly n => Pattern.repeatGroup .exactly (some (.count n))
  | atLeast n => Pattern.repeatGroup .atLeast (some (.count n))
  | between min max => Pattern.repeatGroup .between (some (.range min max))

theorem written_step (form : Form) (base : Base) (steps : List Step) :
    (form.step steps).written base = Step.allWritten base steps >>= form.fold := by
  cases form <;> simp only [step, Step.maybe, Step.option, Step.exactly, Step.atLeast,
    Step.between, Step.oneOrMore, Step.zeroOrMore, Step.written, fold] <;> rfl

theorem fold_nil (form : Form) : form.fold [] = .error .emptyGroup := by
  cases form <;> rfl

theorem fold_ok (form : Form) {members : List Pattern} (given : members ≠ []) :
    ∃ p, form.fold members = .ok p ∧ p.words = form.words (members.map Pattern.words) := by
  cases form with
  | group => exact Pattern.group_ok given
  | set => exact Pattern.set_ok given
  | maybe => exact Pattern.repeatGroup_ok given .maybe none rfl
  | option => exact Pattern.repeatGroup_ok given .option none rfl
  | oneOrMore => exact Pattern.repeatGroup_ok given .atLeast (some (.count 1)) rfl
  | zeroOrMore =>
      obtain ⟨p, folded, allowed⟩ := Pattern.repeatGroup_ok given .atLeast (some (.count 0)) rfl
      refine ⟨p, folded, allowed.trans ?_⟩
      ext word
      exact exists_congr fun k => and_iff_right (Nat.zero_le k)
  | exactly n => exact Pattern.repeatGroup_ok given .exactly (some (.count n)) rfl
  | atLeast n => exact Pattern.repeatGroup_ok given .atLeast (some (.count n)) rfl
  | between min max => exact Pattern.repeatGroup_ok given .between (some (.range min max)) rfl

end Form

namespace Entry

variable (operations : OperationTable) (base : Base)

mutual

/-- The first undeclared token is found from left to right, whatever the depth. -/
theorem unknown?_eq : (entry : Entry) →
    entry.unknown? operations = entry.tokens.find? (!operations.contains ·)
  | token name => by
      cases known : operations.contains name <;> simp [unknown?, tokens, known]
  | block form entries => by
      rw [unknown?, tokens, unknownIn?_eq entries]

theorem unknownIn?_eq : (entries : List Entry) →
    unknownIn? operations entries = (tokensIn entries).find? (!operations.contains ·)
  | [] => rfl
  | entry :: entries => by
      rw [unknownIn?, tokensIn, unknown?_eq entry, unknownIn?_eq entries, List.find?_append]

end

theorem written_token (name : Token) :
    ((token name).step operations).written base = .ok (.terminal base name) := by
  rw [step]
  cases operations[name]? with
  | none => rw [Step.written]
  | some operation => rw [Step.written]

theorem written_block (form : Form) (entries : List Entry) :
    ((block form entries).step operations).written base =
      Step.allWritten base (steps operations entries) >>= form.fold := by
  rw [step, Form.written_step]

mutual

theorem written_of_full : (entry : Entry) → [] ∉ entry.lists →
    ∃ p, (entry.step operations).written base = .ok p ∧ p.words = entry.words
  | token name, _ => ⟨_, written_token operations base name, by rw [Pattern.words, words]⟩
  | block form entries, full => by
      rw [lists, List.mem_cons, not_or] at full
      obtain ⟨some, deeper⟩ := full
      obtain ⟨members, written, allowed⟩ := allWritten_of_full entries deeper
      have given : members ≠ [] := by
        rintro rfl
        cases entries with
        | nil => exact some rfl
        | cons entry entries => cases allowed
      obtain ⟨p, folded, same⟩ := form.fold_ok given
      refine ⟨p, ?_, ?_⟩
      · rw [written_block, written, ok_bind, folded]
      · rw [same, allowed, words]

theorem allWritten_of_full : (entries : List Entry) → [] ∉ listsIn entries →
    ∃ members, Step.allWritten base (steps operations entries) = .ok members ∧
      members.map Pattern.words = wordsIn entries
  | [], _ => ⟨[], by rw [steps, Step.allWritten], by rw [List.map_nil, wordsIn]⟩
  | entry :: entries, full => by
      rw [listsIn, List.mem_append, not_or] at full
      obtain ⟨p, first, allowed⟩ := written_of_full entry full.1
      obtain ⟨members, rest, others⟩ := allWritten_of_full entries full.2
      refine ⟨p :: members, ?_, ?_⟩
      · rw [steps, Step.allWritten, first, rest]
        rfl
      · rw [List.map_cons, allowed, others, wordsIn]

end

mutual

theorem written_of_empty : (entry : Entry) → [] ∈ entry.lists →
    (entry.step operations).written base = .error .emptyGroup
  | token name, empty => by
      rw [lists] at empty
      cases empty
  | block form entries, empty => by
      rw [written_block]
      by_cases deeper : [] ∈ listsIn entries
      · rw [allWritten_of_empty entries deeper]
        rfl
      · rw [lists, List.mem_cons] at empty
        obtain rfl : [] = entries := empty.resolve_right deeper
        rw [steps, Step.allWritten, ok_bind, form.fold_nil]

theorem allWritten_of_empty : (entries : List Entry) → [] ∈ listsIn entries →
    Step.allWritten base (steps operations entries) = .error .emptyGroup
  | [], empty => by
      rw [listsIn] at empty
      cases empty
  | entry :: entries, empty => by
      rw [steps, Step.allWritten]
      by_cases here : [] ∈ entry.lists
      · rw [written_of_empty entry here]
        rfl
      · -- the entry is full, so the fault of the others is the first one
        rw [listsIn, List.mem_append] at empty
        obtain ⟨p, first, _⟩ := written_of_full operations base entry here
        rw [first, ok_bind, allWritten_of_empty entries (empty.resolve_left here)]
        rfl

end

end Entry

namespace RuleDocument

variable {d : RuleDocument}

theorem unknownIn?_order (d : RuleDocument) :
    Entry.unknownIn? d.operations d.order = d.tokens.find? (!d.operations.contains ·) :=
  Entry.unknownIn?_eq d.operations d.order

theorem unknown?_eq_none_iff :
    Entry.unknownIn? d.operations d.order = none ↔ d.Declared := by
  simp [unknownIn?_order, Declared]

theorem close_script (d : RuleDocument) : d.script.close =
    ((Entry.block .group d.order).step d.operations).written d.base := by
  rw [Entry.written_block, Script.close_eq]
  rfl

theorem resolve_of_declared (declared : d.Declared) :
    d.resolve = (d.script.finish.map (d.info, ·)).mapError .construction := by
  rw [resolve, unknown?_eq_none_iff.mpr declared]
  cases d.script.finish <;> rfl

theorem resolve_of_full (declared : d.Declared) (full : [] ∉ d.lists) :
    ∃ order, d.resolve = .ok (d.info, order) ∧ order.root.words = d.words := by
  obtain ⟨p, written, allowed⟩ :=
    Entry.written_of_full d.operations d.base (.block .group d.order) full
  refine ⟨⟨p, d.script.draft.operations⟩, ?_, allowed⟩
  rw [resolve_of_declared declared, Script.finish, close_script, written]
  rfl

theorem resolve_of_empty (declared : d.Declared) (empty : [] ∈ d.lists) :
    d.resolve = .error (.construction .emptyGroup) := by
  have written := Entry.written_of_empty d.operations d.base (.block .group d.order) empty
  rw [resolve_of_declared declared, Script.finish, close_script, written]
  rfl

theorem resolve_of_undeclared {front rest : List Token} {name : Token}
    (tokens : d.tokens = front ++ name :: rest) (before : ∀ token ∈ front, token ∈ d.operations)
    (undeclared : name ∉ d.operations) :
    d.resolve = .error (.document (.unknownToken name)) := by
  have first : d.tokens.find? (!d.operations.contains ·) = some name := by
    rw [List.find?_eq_some_iff_append]
    have unknown : (!d.operations.contains name) = true := by
      simpa [← Std.ExtTreeMap.contains_iff_mem] using undeclared
    refine ⟨unknown, front, rest, tokens, ?_⟩
    simpa using before
  rw [resolve, unknownIn?_order, first]

theorem resolve_ok_iff : (∃ loaded, d.resolve = .ok loaded) ↔ d.Declared ∧ [] ∉ d.lists := by
  constructor
  · intro loads
    obtain ⟨loaded, resolved⟩ := loads
    have declared : d.Declared := by
      rw [← unknown?_eq_none_iff]
      cases unknown : Entry.unknownIn? d.operations d.order with
      | none => rfl
      | some name => simp [resolve, unknown] at resolved
    refine ⟨declared, fun empty => ?_⟩
    rw [resolve_of_empty declared empty] at resolved
    cases resolved
  · intro sound
    obtain ⟨order, resolved, _⟩ := resolve_of_full sound.1 sound.2
    exact ⟨_, resolved⟩

/-- Loading succeeds exactly for documents that declare their tokens and have no empty list. Of the
two faults an undeclared token is the one reported, the first of them if there are several. What is
loaded compiles to an automaton for the words of the document. -/
theorem resolve_exact (d : RuleDocument) :
    ((∃ loaded, d.resolve = .ok loaded) ↔ d.Declared ∧ [] ∉ d.lists) ∧
    (∀ front name rest, d.tokens = front ++ name :: rest → (∀ token ∈ front, token ∈ d.operations) →
      name ∉ d.operations → d.resolve = .error (.document (.unknownToken name))) ∧
    (d.Declared → [] ∈ d.lists → d.resolve = .error (.construction .emptyGroup)) ∧
    (∀ rule order limits dfa, d.resolve = .ok (rule, order) →
      order.root.compile limits = .ok dfa →
      ∀ word, dfa.accepts word = true ↔ word ∈ d.words) := by
  refine ⟨resolve_ok_iff, fun _ _ _ => resolve_of_undeclared, resolve_of_empty, ?_⟩
  intro rule order limits dfa resolved compiled word
  obtain ⟨declared, full⟩ := resolve_ok_iff.mp ⟨_, resolved⟩
  obtain ⟨same, expected, allowed⟩ := resolve_of_full declared full
  obtain rfl : same = order := by
    rw [resolved] at expected
    cases expected
    rfl
  rw [← allowed]
  exact Pattern.accepts_compile_iff compiled word

def editing (first : List Entry) (operations : List Token) : RuleDocument where
  rule := "Editing"
  base := "file"
  failMessage := none
  passMessage := none
  severity := .error
  operations := .ofList (operations.map fun name => (name, Operation.any name))
  order := first ++ [.token "open", .block .zeroOrMore [.block .set [.token "read", .token "write"]]]

theorem editing_resolved :
    (editing [.block .group []] ["open", "read"]).resolve =
      .error (.document (.unknownToken "write")) ∧
    (editing [.block .group []] ["open", "read", "write"]).resolve =
      .error (.construction .emptyGroup) ∧
    ∃ rule order dfa, (editing [] ["open", "read", "write"]).resolve = .ok (rule, order) ∧
      order.root.compile .standard = .ok dfa ∧ dfa.accepts ["open", "write", "read"] = true ∧
      ["open", "write", "read"] ∈ (editing [] ["open", "read", "write"]).words := by
  obtain ⟨_, undeclared, _, _⟩ := resolve_exact (editing [.block .group []] ["open", "read"])
  obtain ⟨_, _, empty, _⟩ := resolve_exact (editing [.block .group []] ["open", "read", "write"])
  obtain ⟨_, _, _, meaning⟩ := resolve_exact (editing [] ["open", "read", "write"])
  refine ⟨undeclared ["open", "read"] "write" [] rfl (by decide +kernel) (by decide +kernel),
    empty (by decide +kernel) (List.mem_cons_of_mem _ List.mem_cons_self), ?_⟩
  have reads : (editing [] ["open", "read", "write"]).resolve.toOption.any fun loaded =>
      (loaded.2.root.compile .standard).toOption.any (·.accepts ["open", "write", "read"]) := by
    decide +kernel
  obtain ⟨⟨rule, order⟩, resolved, ready⟩ := exists_eq_ok reads
  obtain ⟨dfa, compiled, accepted⟩ := exists_eq_ok ready
  exact ⟨rule, order, dfa, resolved, compiled, accepted,
    (meaning rule order .standard dfa resolved compiled _).mp accepted⟩

end RuleDocument

end CallOrder
