import CallOrder.Automaton.Subset
import CallOrder.Automaton.Thompson

/-!
Compiling a pattern, and a cache of what has been compiled.
-/

namespace CallOrder

def Pattern.compile (limits : Limits) (p : Pattern) : Except Error Dfa := do
  (← p.toNfa limits).determinize limits p.bases

/-- Automata compiled under the same limits. -/
structure Cache where
  limits : Limits
  entries : List (Pattern × Dfa)
  hits : Nat
  misses : Nat
  deriving DecidableEq, Repr

namespace Cache

def empty (limits : Limits) : Cache := ⟨limits, [], 0, 0⟩

def find? (c : Cache) (p : Pattern) : Option Dfa :=
  (c.entries.find? (·.1 = p)).map (·.2)

/-- The automaton of `p`, compiled where it is not known yet. A failure is a miss and is not kept. -/
def compile (c : Cache) (p : Pattern) : Except Error Dfa × Cache :=
  match c.find? p with
  | some dfa => (.ok dfa, { c with hits := c.hits + 1 })
  | none =>
    let missed := { c with misses := c.misses + 1 }
    match p.compile c.limits with
    | .ok dfa => (.ok dfa, { missed with entries := (p, dfa) :: c.entries })
    | .error e => (.error e, missed)

def clear (c : Cache) : Cache := { c with entries := [] }

def size (c : Cache) : Nat := c.entries.length

end Cache

end CallOrder
