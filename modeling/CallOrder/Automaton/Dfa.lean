import CallOrder.Pattern.Basic
import Std.Data.ExtTreeMap

/-!
Deterministic automata over tokens, as compiled from a pattern or read from a document. A state is
found by its place in the list; its own `id` is what texts show.
-/

namespace CallOrder

structure Dfa.State where
  id : Nat
  /-- The states of the nondeterministic automaton that this state stands for. -/
  members : Std.ExtTreeSet Nat
  accepting : Bool
  transitions : Std.ExtTreeMap Token Nat
  deriving DecidableEq, Repr

structure Dfa where
  states : Array Dfa.State
  start : Nat
  bases : Std.ExtTreeSet Base
  deriving DecidableEq, Repr

namespace Dfa

def size (d : Dfa) : Nat := d.states.size

def state? (d : Dfa) (state : Nat) : Option State := d.states[state]?

def next? (d : Dfa) (state : Nat) (token : Token) : Option Nat :=
  (d.state? state).bind (·.transitions[token]?)

def isAccepting (d : Dfa) (state : Nat) : Bool := (d.state? state).any (·.accepting)

def acceptingIds (d : Dfa) : List Nat := (d.states.toList.filter (·.accepting)).map (·.id)

def alphabet (d : Dfa) : Std.ExtTreeSet Token :=
  .ofList (d.states.toList.flatMap (·.transitions.keys))

/-- The state after the whole of `word`, if every token can be read. -/
def run? (d : Dfa) (state : Nat) : List Token → Option Nat
  | [] => some state
  | token :: word => (d.next? state token).bind (d.run? · word)

def accepts (d : Dfa) (word : List Token) : Bool := (d.run? d.start word).any d.isAccepting

/-- Stands among the tokens that may come next where the calls may also end. -/
def endMark : String := "END"

def insertOrdered (s : String) : List String → List String
  | [] => [s]
  | x :: xs => if s ≤ x then s :: x :: xs else x :: insertOrdered s xs

/-- The tokens that may follow in `state`, in increasing order, and `endMark` where it accepts. -/
def expectedNext (d : Dfa) (state : Nat) : List String :=
  match d.state? state with
  | none => []
  | some s => if s.accepting then insertOrdered endMark s.transitions.keys else s.transitions.keys

end Dfa

end CallOrder
