import CallOrder.Compilation
import CallOrder.Proofs.Automaton.Building
import CallOrder.Proofs.Automaton.Subset
import CallOrder.Proofs.Compilation

/-! Limits decide whether a pattern is compiled and never what it is compiled to. -/

namespace CallOrder

/-- What the first limits leave room for, the second do too. -/
structure Limits.Within (limits lax : Limits) : Prop where
  maxNfaStates : limits.maxNfaStates ≤ lax.maxNfaStates
  maxDfaStates : limits.maxDfaStates ≤ lax.maxDfaStates
  maxBound : limits.maxBound ≤ lax.maxBound
  maxDepth : limits.maxDepth ≤ lax.maxDepth

namespace Work

variable {limits lax : Limits}

/-- Where the first piece of work succeeds, the second comes to the same. -/
def Eased : Work.Relation := fun α work easier =>
  ∀ (bench after : Workbench) (value : α), work bench = (.ok value, after) →
    easier bench = (.ok value, after)

theorem eased_newState (within : limits.Within lax) :
    Eased Nat (Fragment.newState limits) (Fragment.newState lax) := by
  intro bench after state made
  rw [Fragment.newState] at made ⊢
  split at made
  case isTrue room => rw [if_pos (room.trans_le within.maxNfaStates), made]
  case isFalse full => cases made

theorem eased_checkBound (within : limits.Within lax) (kind : Quantifier) (bound : Nat) :
    Eased Unit (Fragment.checkBound limits kind bound) (Fragment.checkBound lax kind bound) := by
  intro bench after checked passed
  obtain ⟨small, rfl⟩ := Fragment.checkBound_ok passed
  rw [Fragment.checkBound, if_pos (small.trans within.maxBound)]
  rfl

theorem eased_nested (within : limits.Within lax) {work easier : Work Fragment}
    (eased : Eased Fragment work easier) :
    Eased Fragment (Fragment.nested limits work) (Fragment.nested lax easier) := by
  intro bench after whole made
  rw [Fragment.nested] at made ⊢
  split at made
  case isTrue shallow =>
    rw [if_pos (shallow.trans_le within.maxDepth)]
    generalize inner : work { bench with depth := bench.depth + 1 } = outcome at made
    obtain ⟨result, middle⟩ := outcome
    cases made
    rw [eased _ _ _ inner]
  case isFalse deep => cases made

theorem eased_respected (within : limits.Within lax) : Eased.Respected limits lax where
  done _ _ _ _ made := made
  bind := by
    intro α β work easier next easierNext first rest bench after value made
    obtain ⟨middleValue, middle, early, late⟩ := bind_ok made
    rw [bind_apply, first _ _ _ early]
    exact rest middleValue _ _ _ late
  construction _ _ _ _ made := made
  specification _ _ _ _ _ made := made
  newState := eased_newState within
  connect _ _ _ _ _ _ made := made
  checkBound := eased_checkBound within
  nested := eased_nested within

/-- What work can come to that keeps to the limit on states. -/
inductive Confined (limits : Limits) {α : Type} : Except Error α × Workbench → Prop
  | done {value : α} {after : Workbench} (room : after.nfa.size ≤ limits.maxNfaStates) :
      Confined limits (.ok value, after)
  | full {after : Workbench} :
      Confined limits
        (.error (.automatonLimit limits.maxNfaStates (limits.maxNfaStates + 1)), after)
  | construction {cause : ConstructionError} {after : Workbench} :
      Confined limits (.error (.construction cause), after)
  | specification {cause : SpecificationError} {after : Workbench} :
      Confined limits (.error (.specification cause), after)

def Confines (limits : Limits) : Work.Relation := fun _ work _ =>
  ∀ bench : Workbench, bench.nfa.size ≤ limits.maxNfaStates → Confined limits (work bench)

theorem confines_bind {α β : Type} {work other : Work α} {next otherNext : α → Work β}
    (first : Confines limits α work other)
    (rest : ∀ value, Confines limits β (next value) (otherNext value)) :
    Confines limits β (work >>= next) (other >>= otherNext) := by
  intro bench room
  rw [bind_apply]
  generalize made : work bench = outcome
  have given := first bench room
  rw [made] at given
  cases given with
  | done room => exact rest _ _ room
  | full => exact .full
  | construction => exact .construction
  | specification => exact .specification

theorem confines_newState :
    Confines limits Nat (Fragment.newState limits) (Fragment.newState limits) := by
  intro bench room
  rw [Fragment.newState]
  split
  case isTrue less =>
    apply Confined.done
    rw [Nfa.size_addState]
    exact less
  case isFalse full =>
    have last : bench.nfa.size = limits.maxNfaStates := by omega
    rw [last]
    exact .full

theorem confines_nested {work other : Work Fragment}
    (inner : Confines limits Fragment work other) :
    Confines limits Fragment (Fragment.nested limits work) (Fragment.nested limits other) := by
  intro bench room
  rw [Fragment.nested]
  split
  case isTrue shallow =>
    generalize made : work { bench with depth := bench.depth + 1 } = outcome
    have given := inner { bench with depth := bench.depth + 1 } room
    rw [made] at given
    cases given with
    | done room => exact .done room
    | full => exact .full
    | construction => exact .construction
    | specification => exact .specification
  case isFalse deep => exact .specification

theorem confines_respected (limits : Limits) : (Confines limits).Respected limits limits where
  done _ _ room := .done room
  bind := confines_bind
  construction _ _ _ := .construction
  specification _ _ _ _ := .specification
  newState := confines_newState
  connect source label target bench room := by
    apply Confined.done
    rw [Nfa.size_addEdge]
    exact room
  checkBound kind bound bench room := by
    rw [Fragment.checkBound]
    split
    · exact .done room
    · exact .specification
  nested := confines_nested

end Work

namespace Discovery

variable {limits lax : Limits} {n : Nfa} {set : Std.ExtTreeSet Nat} {tokens : List Token}
  {row : Std.ExtTreeMap Token Nat} {d : Discovery} {rows : Array (Std.ExtTreeMap Token Nat)}

/-- What discovery can come to that keeps to the limit on sets. -/
inductive Confined (limits : Limits) {α : Type} (size : α → Nat) : Except Error α → Prop
  | done {value : α} (room : size value ≤ limits.maxDfaStates) : Confined limits size (.ok value)
  | full : Confined limits size
      (.error (.automatonLimit limits.maxDfaStates (limits.maxDfaStates + 1)))

theorem Confined.bind {α β : Type} {size : α → Nat} {finalSize : β → Nat} {first : Except Error α}
    {next : α → Except Error β} (confined : Confined limits size first)
    (rest : ∀ value, size value ≤ limits.maxDfaStates → Confined limits finalSize (next value)) :
    Confined limits finalSize (first >>= next) := by
  cases confined with
  | done room => exact rest _ room
  | full => exact .full

theorem number_confined (room : d.sets.size ≤ limits.maxDfaStates) (set : Std.ExtTreeSet Nat) :
    Confined limits (fun found : Nat × Discovery => found.2.sets.size) (d.number limits set) := by
  rw [number]
  split
  · exact .done room
  · split
    case isTrue less =>
      apply Confined.done
      rw [Array.size_push]
      exact less
    case isFalse full =>
      have last : d.sets.size = limits.maxDfaStates := by omega
      rw [last]
      exact .full

theorem transitions_confined (room : d.sets.size ≤ limits.maxDfaStates) (n : Nfa)
    (set : Std.ExtTreeSet Nat) (tokens : List Token) (row : Std.ExtTreeMap Token Nat) :
    Confined limits (fun found : Std.ExtTreeMap Token Nat × Discovery => found.2.sets.size)
      (d.transitions limits n set tokens row) := by
  induction tokens generalizing d row with
  | nil => exact .done room
  | cons token tokens ih =>
      rw [transitions]
      split
      · exact ih room row
      · apply (number_confined room _).bind
        intro found foundRoom
        exact ih foundRoom _

theorem explore_confined (room : d.sets.size ≤ limits.maxDfaStates) (steps : Nat) :
    Confined limits (fun found : Discovery × Array (Std.ExtTreeMap Token Nat) => found.1.sets.size)
      (d.explore limits n steps rows) := by
  induction steps generalizing d rows with
  | zero => exact .done room
  | succ steps ih =>
      rw [explore]
      split
      · exact .done room
      · apply (transitions_confined room n _ _ _).bind
        intro found foundRoom
        exact ih foundRoom

theorem number_eased (within : limits.Within lax) {found : Nat × Discovery}
    (done : d.number limits set = .ok found) : d.number lax set = .ok found := by
  rw [number] at done ⊢
  split at done
  · exact done
  · split at done
    case isTrue room =>
      rw [if_pos (room.trans_le within.maxDfaStates)]
      exact done
    case isFalse full => cases done

theorem transitions_eased (within : limits.Within lax)
    {found : Std.ExtTreeMap Token Nat × Discovery}
    (done : d.transitions limits n set tokens row = .ok found) :
    d.transitions lax n set tokens row = .ok found := by
  induction tokens generalizing d row with
  | nil => exact done
  | cons token tokens ih =>
      rw [transitions] at done ⊢
      by_cases nowhere : (n.advance set token).isEmpty = true
      · rw [if_pos nowhere] at done ⊢
        exact ih done
      · rw [if_neg nowhere] at done ⊢
        obtain ⟨numbered, first, rest⟩ := bind_eq_ok done
        rw [number_eased within first]
        exact ih rest

/-- Exploration takes as many steps as there are sets, so more steps than the strict limit leaves
change nothing. -/
theorem explore_eased (within : limits.Within lax) {steps more : Nat} (enough : steps ≤ more)
    {found : Discovery × Array (Std.ExtTreeMap Token Nat)}
    (room : d.sets.size ≤ limits.maxDfaStates) (all : limits.maxDfaStates ≤ rows.size + steps)
    (done : d.explore limits n steps rows = .ok found) :
    d.explore lax n more rows = .ok found := by
  induction steps generalizing d rows more with
  | zero =>
      have finished : d.sets[rows.size]? = none := Array.getElem?_eq_none (by omega)
      cases more with
      | zero => exact done
      | succ more =>
          rw [explore, finished]
          exact done
  | succ steps ih =>
      obtain ⟨more, rfl⟩ := Nat.exists_eq_add_of_le' (Nat.one_le_of_lt enough)
      rw [explore] at done ⊢
      cases next : d.sets[rows.size]? with
      | none =>
          rw [next] at done
          exact done
      | some set =>
          rw [next] at done
          obtain ⟨filled, first, rest⟩ := bind_eq_ok done
          have confined := transitions_confined room n set (n.outgoing set).toList ∅
          rw [first] at confined
          cases confined with
          | done roomToo =>
              dsimp only
              rw [transitions_eased within first]
              exact ih (by omega) roomToo (by rw [Array.size_push]; omega) rest

end Discovery

namespace Nfa

variable {n : Nfa} {limits lax : Limits} {bases : Std.ExtTreeSet Base}

theorem determinize_confined (limits : Limits) (bases : Std.ExtTreeSet Base) (n : Nfa) :
    Discovery.Confined limits Dfa.size (n.determinize limits bases) := by
  apply (Discovery.number_confined (Nat.zero_le _) n.initial).bind
  intro first room
  apply (Discovery.explore_confined room limits.maxDfaStates).bind
  intro found roomToo
  apply Discovery.Confined.done
  rw [Dfa.size, Array.size_mapIdx]
  exact roomToo

theorem determinize_eased (within : limits.Within lax) {dfa : Dfa}
    (done : n.determinize limits bases = .ok dfa) : n.determinize lax bases = .ok dfa := by
  obtain ⟨⟨start, d⟩, numbered, rest⟩ := bind_eq_ok done
  obtain ⟨found, explored, rest⟩ := bind_eq_ok rest
  have nothing : Discovery.empty.sets.size ≤ limits.maxDfaStates := Nat.zero_le _
  have confined := Discovery.number_confined nothing n.initial
  rw [numbered] at confined
  cases confined with
  | done room =>
      have same := Discovery.explore_eased within within.maxDfaStates room (by simp) explored
      rw [determinize, Discovery.number_eased within numbered, ok_bind]
      dsimp only
      rw [same]
      exact rest

end Nfa

namespace Pattern

variable {p : Pattern} {limits lax : Limits}

theorem toNfa_eased (within : limits.Within lax) {n : Nfa} (built : p.toNfa limits = .ok n) :
    p.toNfa lax = .ok n := by
  rw [toNfa] at built ⊢
  split at built
  · rename_i whole bench made
    rw [build_related (Work.eased_respected within) p _ _ _ made]
    exact built
  · cases built

theorem toNfa_error {limit reached : Nat}
    (failed : p.toNfa limits = .error (.automatonLimit limit reached)) :
    limit = limits.maxNfaStates ∧ reached = limit + 1 := by
  have confined := build_related (Work.confines_respected limits) p ⟨.empty, 0⟩ (Nat.zero_le _)
  rw [toNfa] at failed
  generalize p.build limits ⟨.empty, 0⟩ = outcome at confined failed
  cases confined with
  | done => cases failed
  | full =>
      cases failed
      exact ⟨rfl, rfl⟩
  | construction => cases failed
  | specification => cases failed

theorem compile_eased (within : limits.Within lax) {dfa : Dfa}
    (compiled : p.compile limits = .ok dfa) : p.compile lax = .ok dfa := by
  obtain ⟨n, built, rest⟩ := bind_eq_ok compiled
  rw [compile, toNfa_eased within built]
  exact Nfa.determinize_eased within rest

theorem size_compile_le {dfa : Dfa} (compiled : p.compile limits = .ok dfa) :
    dfa.size ≤ limits.maxDfaStates := by
  obtain ⟨n, _, rest⟩ := bind_eq_ok compiled
  have confined := Nfa.determinize_confined limits p.bases n
  rw [rest] at confined
  cases confined with
  | done room => exact room

theorem compile_error {limit reached : Nat}
    (failed : p.compile limits = .error (.automatonLimit limit reached)) :
    reached = limit + 1 ∧ (limit = limits.maxNfaStates ∨ limit = limits.maxDfaStates) := by
  rw [compile] at failed
  cases built : p.toNfa limits with
  | error e =>
      rw [built] at failed
      cases failed
      obtain ⟨own, next⟩ := toNfa_error built
      exact ⟨next, Or.inl own⟩
  | ok n =>
      rw [built, ok_bind] at failed
      have confined := Nfa.determinize_confined limits p.bases n
      rw [failed] at confined
      cases confined with
      | full => exact ⟨rfl, Or.inr rfl⟩

/-- What compiles under some limits compiles to the same automaton under wider ones, the automaton
keeps to its limit, and a limit that stops the work is told with the number that it stands for. -/
theorem compile_gated (limits : Limits) (p : Pattern) :
    (∀ lax, limits.Within lax → ∀ dfa, p.compile limits = .ok dfa → p.compile lax = .ok dfa) ∧
    (∀ dfa, p.compile limits = .ok dfa → dfa.size ≤ limits.maxDfaStates) ∧
    ∀ limit reached, p.compile limits = .error (.automatonLimit limit reached) →
      reached = limit + 1 ∧ (limit = limits.maxNfaStates ∨ limit = limits.maxDfaStates) := by
  constructor
  · intro lax within dfa compiled
    exact compile_eased within compiled
  · constructor
    · intro dfa compiled
      exact size_compile_le compiled
    · intro limit reached failed
      exact compile_error failed

theorem session_gated : Limits.Within ⟨8, 4, 0, 3⟩ .standard ∧
    (∃ dfa, session.compile ⟨8, 4, 0, 3⟩ = .ok dfa ∧ session.compile .standard = .ok dfa ∧
      dfa.size ≤ 4) ∧
    session.compile ⟨8, 3, 0, 3⟩ = .error (.automatonLimit 3 4) ∧ 4 = 3 + 1 := by
  have within : Limits.Within ⟨8, 4, 0, 3⟩ .standard :=
    ⟨by decide, by decide, by decide, by decide⟩
  have compiles : (session.compile ⟨8, 4, 0, 3⟩).toOption.any (0 < ·.size) := by decide +kernel
  have stops : session.compile ⟨8, 3, 0, 3⟩ = .error (.automatonLimit 3 4) := by decide +kernel
  obtain ⟨dfa, compiled, _⟩ := exists_eq_ok compiles
  obtain ⟨same, bounded, _⟩ := compile_gated ⟨8, 4, 0, 3⟩ session
  obtain ⟨_, _, told⟩ := compile_gated ⟨8, 3, 0, 3⟩ session
  exact ⟨within, ⟨dfa, compiled, same .standard within dfa compiled, bounded dfa compiled⟩,
    stops, (told 3 4 stops).1⟩

end Pattern

end CallOrder
