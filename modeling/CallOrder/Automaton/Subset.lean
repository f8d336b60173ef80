import CallOrder.Automaton.Dfa
import CallOrder.Automaton.Nfa
import CallOrder.Error
import CallOrder.Limits

/-!
From a nondeterministic automaton to a deterministic one whose states are sets of states. Sets are
numbered as they are found, breadth first and by increasing tokens.
-/

namespace CallOrder

structure Discovery where
  /-- In the order in which they were found. -/
  sets : Array (Std.ExtTreeSet Nat)
  /-- The number of each set, by its members. -/
  numbers : Std.ExtTreeMap (List Nat) Nat

namespace Discovery

def empty : Discovery := ⟨#[], ∅⟩

/-- The number of `set`, which is a new one where the set has not been seen before. -/
def number (limits : Limits) (set : Std.ExtTreeSet Nat) (d : Discovery) :
    Except Error (Nat × Discovery) :=
  match d.numbers[set.toList]? with
  | some n => .ok (n, d)
  | none =>
    if d.sets.size < limits.maxDfaStates then
      .ok (d.sets.size, ⟨d.sets.push set, d.numbers.insert set.toList d.sets.size⟩)
    else .error (.automatonLimit limits.maxDfaStates (d.sets.size + 1))

def transitions (limits : Limits) (n : Nfa) (set : Std.ExtTreeSet Nat) :
    (tokens : List Token) → (d : Discovery) → (row : Std.ExtTreeMap Token Nat) →
      Except Error (Std.ExtTreeMap Token Nat × Discovery)
  | [], d, row => .ok (row, d)
  | token :: tokens, d, row => do
    let target := n.advance set token
    if target.isEmpty then transitions limits n set tokens d row
    else
      let (number, d) ← d.number limits target
      transitions limits n set tokens d (row.insert token number)

/-- Finds the transitions of set after set, as long as there is one without. Every step deals with
one set and there are at most as many as the limit allows. -/
def explore (limits : Limits) (n : Nfa) :
    (steps : Nat) → (d : Discovery) → (rows : Array (Std.ExtTreeMap Token Nat)) →
      Except Error (Discovery × Array (Std.ExtTreeMap Token Nat))
  | 0, d, rows => .ok (d, rows)
  | steps + 1, d, rows =>
    match d.sets[rows.size]? with
    | none => .ok (d, rows)
    | some set => do
      let (row, d) ← d.transitions limits n set (n.outgoing set).toList ∅
      explore limits n steps d (rows.push row)

end Discovery

namespace Nfa

def determinize (limits : Limits) (bases : Std.ExtTreeSet Base) (n : Nfa) : Except Error Dfa := do
  let (start, d) ← Discovery.empty.number limits n.initial
  let (d, rows) ← d.explore limits n limits.maxDfaStates #[]
  let states := d.sets.mapIdx fun i set => ⟨i, set, set.contains n.accept, rows.getD i ∅⟩
  return ⟨states, start, bases⟩

end Nfa

end CallOrder
