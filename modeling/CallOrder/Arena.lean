import CallOrder.Occurrence
import Std.Data.ExtTreeSet

/-!
The arena: every occurrence of a program, numbered from zero in the order of arrival, with an index
from target to occurrences.
-/

namespace CallOrder

structure Arena where
  occurrences : Array Occurrence
  /-- For each target its occurrences in the order of arrival. -/
  index : Std.ExtTreeMap String (Array OccurrenceId)
  deriving DecidableEq, Repr

namespace Arena

def empty : Arena := ⟨#[], ∅⟩

def size (a : Arena) : Nat := a.occurrences.size

def get? (a : Arena) (id : OccurrenceId) : Option Occurrence := a.occurrences[id]?

def nextId (a : Arena) : OccurrenceId := a.size

def byTarget (a : Arena) (target : String) : Array OccurrenceId := a.index.getD target #[]

def push (a : Arena) (occurrence : Occurrence) : Arena where
  occurrences := a.occurrences.push occurrence
  index := a.index.alter occurrence.target fun known => some ((known.getD #[]).push a.nextId)

def codeOf (a : Arena) (id : OccurrenceId) : String :=
  match a.get? id with
  | some occurrence => occurrence.code
  | none => id.text

def bases (a : Arena) : Std.ExtTreeSet Base := .ofList (a.occurrences.toList.filterMap (·.base))

structure Stats where
  occurrences : Nat
  distinctTargets : Nat
  distinctBases : Nat
  deriving DecidableEq, Repr

def stats (a : Arena) : Stats := ⟨a.size, a.index.size, a.bases.size⟩

end Arena

end CallOrder
