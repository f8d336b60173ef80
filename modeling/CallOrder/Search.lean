import Std.Data.ExtTreeSet

/-!
Search in a directed graph whose nodes are numbers and whose links are given by `next`: every node
that can be reached from given ones, those included.
-/

namespace CallOrder.Search

/-- Visits the nodes of `pending` and all that they lead to, except what has been `seen`. Every step
takes one node off `pending`, and the links of a node are put there once, so the nodes pending and
the links of all unseen nodes together bound the number of steps. -/
def visit (next : Nat → List Nat) :
    (steps : Nat) → (pending : List Nat) → (seen : Std.ExtTreeSet Nat) → Std.ExtTreeSet Nat
  | 0, _, seen => seen
  | _ + 1, [], seen => seen
  | steps + 1, node :: pending, seen =>
    if seen.contains node then visit next steps pending seen
    else visit next steps (next node ++ pending) (seen.insert node)

def reach (next : Nat → List Nat) (links : Nat) (starts : List Nat) : Std.ExtTreeSet Nat :=
  visit next (starts.length + links) starts ∅

end CallOrder.Search
