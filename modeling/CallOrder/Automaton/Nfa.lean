import CallOrder.Pattern.Basic
import CallOrder.Search

/-!
Nondeterministic automata over tokens, with edges that read nothing. States are numbered from zero;
an edge may lead to a number that no state has, where nothing goes on.
-/

namespace CallOrder

structure Nfa.Edge where
  /-- The token read, or nothing. -/
  label : Option Token
  target : Nat
  deriving DecidableEq, Repr

structure Nfa where
  /-- The edges of each state in the order in which they were added. -/
  states : Array (List Nfa.Edge)
  start : Nat
  accept : Nat
  deriving DecidableEq, Repr

namespace Nfa

def empty : Nfa := ⟨#[], 0, 0⟩

def size (n : Nfa) : Nat := n.states.size

def addState (n : Nfa) : Nfa := { n with states := n.states.push [] }

/-- Adds an edge to the state `source`; there is no effect where `source` is no state. -/
def addEdge (n : Nfa) (source : Nat) (label : Option Token) (target : Nat) : Nfa :=
  { n with states := n.states.modify source (· ++ [⟨label, target⟩]) }

/-- Adds an edge to the state `source`, which has to exist. -/
def addEdge? (n : Nfa) (source : Nat) (label : Option Token) (target : Nat) : Option Nfa :=
  if source < n.size then some (n.addEdge source label target) else none

def edges (n : Nfa) (state : Nat) : List Edge := n.states.getD state []

def edgeCount (n : Nfa) : Nat := n.states.foldl (fun count edges => count + edges.length) 0

def successors (n : Nfa) (label : Option Token) (state : Nat) : List Nat :=
  (n.edges state).filterMap fun edge => if edge.label = label then some edge.target else none

/-- `states` and all that can be reached from them without reading. -/
def closure (n : Nfa) (states : Std.ExtTreeSet Nat) : Std.ExtTreeSet Nat :=
  Search.reach (n.successors none) n.edgeCount states.toList

def step (n : Nfa) (states : Std.ExtTreeSet Nat) (token : Token) : Std.ExtTreeSet Nat :=
  .ofList (states.toList.flatMap (n.successors (some token)))

def outgoing (n : Nfa) (states : Std.ExtTreeSet Nat) : Std.ExtTreeSet Token :=
  .ofList (states.toList.flatMap fun state => (n.edges state).filterMap (·.label))

def initial (n : Nfa) : Std.ExtTreeSet Nat := n.closure (.ofList [n.start])

def advance (n : Nfa) (states : Std.ExtTreeSet Nat) (token : Token) : Std.ExtTreeSet Nat :=
  n.closure (n.step states token)

def run (n : Nfa) (word : List Token) : Std.ExtTreeSet Nat := word.foldl n.advance n.initial

def accepts (n : Nfa) (word : List Token) : Bool := (n.run word).contains n.accept

end Nfa

end CallOrder
