import CallOrder.Proofs.Automaton.Subset
import CallOrder.Proofs.Lists
import Mathlib.Computability.EpsilonNFA

/-!
Automata put together step by step. Main statement: whatever the steps, a word is accepted exactly
if it is spelt by a path along the edges that have been drawn.
-/

namespace CallOrder.Nfa

inductive Change where
  | state
  | edge (source : Nat) (label : Option Token) (target : Nat)
  | start (state : Nat)
  | accept (state : Nat)
  deriving DecidableEq, Repr

/-- The automaton after a step. An edge is refused where its source does not exist. -/
def change (n : Nfa) : Change → Nfa
  | .state => n.addState
  | .edge source label target => (n.addEdge? source label target).getD n
  | .start state => { n with start := state }
  | .accept state => { n with accept := state }

def ofChanges (changes : List Change) : Nfa := changes.foldl change .empty

/-- Some step drew the edge, from a state that was there by then. Where it leads to need not be. -/
def Draws (changes : List Change) (source : Nat) (label : Option Token) (target : Nat) : Prop :=
  ∃ before after, changes = before ++ .edge source label target :: after ∧
    source < before.count .state

def Change.start? : Change → Option Nat
  | .start number => some number
  | _ => none

def Change.accept? : Change → Option Nat
  | .accept number => some number
  | _ => none

def lastNamed (name? : Change → Option Nat) (changes : List Change) : Nat :=
  (changes.filterMap name?).getLastD 0

/-- What the steps say, as an automaton of any edges between any numbers. -/
def diagram (changes : List Change) : εNFA Token Nat where
  step source label := {target | Draws changes source label target}
  start := {lastNamed Change.start? changes}
  accept := {lastNamed Change.accept? changes}

section Step

variable {n : Nfa} {c : Change} {source target : Nat} {label : Option Token}

theorem change_edge (n : Nfa) (source : Nat) (label : Option Token) (target : Nat) :
    n.change (.edge source label target) =
      if source < n.size then n.addEdge source label target else n := by
  rw [change, addEdge?]
  split <;> rfl

theorem size_change (n : Nfa) (c : Change) : (n.change c).size = n.size + [c].count .state := by
  cases c with
  | state => exact size_addState
  | edge source label target =>
      rw [change_edge]
      split
      · exact size_addEdge source label target
      · rfl
  | start state => rfl
  | accept state => rfl

theorem mem_edges_change : ⟨label, target⟩ ∈ (n.change c).edges source ↔
    ⟨label, target⟩ ∈ n.edges source ∨ c = .edge source label target ∧ source < n.size := by
  cases c with
  | state => simp [change]
  | edge first other last =>
      rw [change_edge]
      split
      case isTrue present =>
        rw [mem_edges_addEdge present]
        grind
      case isFalse refused =>
        have nothing : ¬ (Change.edge first other last = .edge source label target ∧
            source < n.size) := by
          rintro ⟨same, present⟩
          cases same
          exact refused present
        rw [or_iff_left nothing]
  | start state => simp [change, edges]
  | accept state => simp [change, edges]

theorem start_change (n : Nfa) (c : Change) : (n.change c).start = c.start?.getD n.start := by
  cases c with
  | edge source label target =>
      rw [change_edge]
      split <;> rfl
  | _ => rfl

theorem accept_change (n : Nfa) (c : Change) : (n.change c).accept = c.accept?.getD n.accept := by
  cases c with
  | edge source label target =>
      rw [change_edge]
      split <;> rfl
  | _ => rfl

end Step

theorem ofChanges_append (changes : List Change) (last : Change) :
    ofChanges (changes ++ [last]) = (ofChanges changes).change last := by
  rw [ofChanges, List.foldl_append]
  rfl

theorem size_ofChanges (changes : List Change) :
    (ofChanges changes).size = changes.count .state := by
  induction changes using List.reverseRecOn with
  | nil => rfl
  | append_singleton changes last ih => rw [ofChanges_append, size_change, ih, List.count_append]

theorem draws_append {changes : List Change} {last : Change} {source target : Nat}
    {label : Option Token} : Draws (changes ++ [last]) source label target ↔
      Draws changes source label target ∨
        last = .edge source label target ∧ source < changes.count .state := by
  constructor
  · rintro ⟨before, after, split, present⟩
    rcases concat_eq_split_iff.mp split with ⟨rfl, same, _⟩ | ⟨more, _, earlier⟩
    · exact Or.inr ⟨same, present⟩
    · exact Or.inl ⟨before, more, earlier, present⟩
  · rintro (⟨before, after, rfl, present⟩ | ⟨rfl, present⟩)
    · exact ⟨before, after ++ [last], by simp, present⟩
    · exact ⟨changes, [], rfl, present⟩

theorem mem_edges_ofChanges {changes : List Change} {source target : Nat} {label : Option Token} :
    ⟨label, target⟩ ∈ (ofChanges changes).edges source ↔ Draws changes source label target := by
  induction changes using List.reverseRecOn with
  | nil => simp [ofChanges, empty, edges, Draws]
  | append_singleton changes last ih =>
      rw [ofChanges_append, mem_edges_change, ih, size_ofChanges, draws_append]

theorem lastNamed_append (name? : Change → Option Nat) (changes : List Change) (last : Change) :
    lastNamed name? (changes ++ [last]) = (name? last).getD (lastNamed name? changes) := by
  cases named : name? last <;> simp [lastNamed, named]

theorem ofChanges_named {name? : Change → Option Nat} {field : Nfa → Nat} (first : field empty = 0)
    (sets : ∀ n c, field (n.change c) = (name? c).getD (field n)) (changes : List Change) :
    field (ofChanges changes) = lastNamed name? changes := by
  induction changes using List.reverseRecOn with
  | nil => exact first
  | append_singleton changes last ih => rw [ofChanges_append, sets, ih, lastNamed_append]

section Path

variable {n : Nfa} {m : εNFA Token Nat} {source target : Nat}

theorem reads_iff_isPath (same : ∀ source label target,
      ⟨label, target⟩ ∈ n.edges source ↔ target ∈ m.step source label) {word : List Token} :
    n.Reads source word target ↔
      ∃ labels, labels.reduceOption = word ∧ m.IsPath source target labels := by
  constructor
  · intro reads
    induction reads with
    | done state => exact ⟨[], rfl, .nil state⟩
    | silent edge _ ih =>
        obtain ⟨labels, rfl, path⟩ := ih
        exact ⟨none :: labels, rfl, .cons _ _ _ _ _ ((same _ _ _).mp edge) path⟩
    | token edge _ ih =>
        obtain ⟨labels, rfl, path⟩ := ih
        exact ⟨some _ :: labels, rfl, .cons _ _ _ _ _ ((same _ _ _).mp edge) path⟩
  · rintro ⟨labels, rfl, path⟩
    induction path with
    | nil state => exact .done state
    | cons middle source target label labels step _ ih =>
        have edge := (same _ _ _).mpr step
        cases label with
        | none => exact .silent edge ih
        | some token => exact .token edge ih

end Path

/-- Reading on from a set of states, which ends as soon as no state is left. -/
def readOn (n : Nfa) (states : Std.ExtTreeSet Nat) : List Token → Bool
  | [] => states.contains n.accept
  | token :: word =>
    let next := n.advance states token
    if next.isEmpty then false else n.readOn next word

theorem readOn_eq (n : Nfa) (states : Std.ExtTreeSet Nat) (word : List Token) :
    n.readOn states word = (word.foldl n.advance states).contains n.accept := by
  induction word generalizing states with
  | nil => rfl
  | cons token word ih =>
      rw [readOn, List.foldl_cons, ih]
      split
      case isTrue nowhere =>
        rw [Std.ExtTreeSet.isEmpty_iff.mp nowhere, foldl_advance_empty]
        rfl
      case isFalse => rfl

/-- Whatever steps have put an automaton together, it accepts a word exactly if the word is what is
read along some path of its diagram from the start to the end. Giving up where no state is left
answers the same. -/
theorem accepts_iff_path (changes : List Change) (word : List Token) :
    ((ofChanges changes).accepts word = true ↔ ∃ labels, labels.reduceOption = word ∧
      (diagram changes).IsPath (lastNamed Change.start? changes)
        (lastNamed Change.accept? changes) labels) ∧
    (ofChanges changes).readOn (ofChanges changes).initial word =
      (ofChanges changes).accepts word := by
  refine ⟨?_, readOn_eq _ _ _⟩
  rw [accepts_iff_reads, ofChanges_named rfl start_change, ofChanges_named rfl accept_change]
  exact reads_iff_isPath fun _ _ _ => mem_edges_ofChanges

/-- The end is a number that no state has. The last edge is refused. -/
example : (ofChanges [.state, .edge 0 none 0, .edge 0 (some "a") 7, .accept 7,
    .edge 7 none 0]).accepts ["a", "a"] = false := by decide +kernel

end CallOrder.Nfa
