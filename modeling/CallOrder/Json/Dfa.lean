import CallOrder.Automaton.Dfa
import CallOrder.Json.Record

/-!
Deterministic automata as JSON.
-/

namespace CallOrder.Dfa

namespace State

def toJson (s : State) : Json :=
  .object [("id", .natural s.id), ("nfa_states", .naturals s.members.toList),
    ("accepting", .bool s.accepting), ("transitions", Json.ofMap .natural s.transitions)]

def fields : List Field :=
  [.required "id", .required "nfa_states", .required "accepting", .required "transitions"]

def ofJson? (j : Json) : Option State := do
  match ← j.record? fields with
  | [some id, some members, some accepting, some transitions] =>
    return ⟨← id.natural?, .ofList (← members.list? Json.natural?), ← accepting.bool?,
      ← transitions.map? Json.natural?⟩
  | _ => none

end State

def toJson (d : Dfa) : Json :=
  .object [("states", .array (d.states.toList.map State.toJson)), ("start", .natural d.start),
    ("bases", .texts d.bases.toList)]

def ofJson? (j : Json) : Option Dfa := do
  match ← j.record? [.required "states", .required "start", .required "bases"] with
  | [some states, some start, some bases] =>
    return ⟨(← states.list? State.ofJson?).toArray, ← start.natural?,
      .ofList (← bases.list? Json.text?)⟩
  | _ => none

end CallOrder.Dfa
