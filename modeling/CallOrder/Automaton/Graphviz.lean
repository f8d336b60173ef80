import CallOrder.Automaton.Dfa

/-!
Drawings of deterministic automata in the language of Graphviz: a doubled circle for an accepting
state and one labelled arrow for each transition.
-/

namespace CallOrder.Dfa

def nodeLine (s : State) : String :=
  "    q" ++ toString s.id ++ " [shape=" ++ (if s.accepting then "doublecircle" else "circle") ++
    "];\n"

def arrowLine (source : Nat) (arrow : Token × Nat) : String :=
  "    q" ++ toString source ++ " -> q" ++ toString arrow.2 ++ " [label=\"" ++ arrow.1 ++ "\"];\n"

def arrowLines (s : State) : List String := s.transitions.toList.map (arrowLine s.id)

def toGraphviz (d : Dfa) : String :=
  "digraph dfa \x7b\n    rankdir=LR;\n    __start [shape=point];\n" ++
    String.join (d.states.toList.map nodeLine) ++
    "    __start -> q" ++ toString d.start ++ ";\n" ++
    String.join (d.states.toList.flatMap arrowLines) ++ "\x7d\n"

end CallOrder.Dfa
