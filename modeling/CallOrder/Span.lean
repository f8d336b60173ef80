/-!
Stretches of source text, by line and column of both ends.
-/

namespace CallOrder

structure Span where
  startLine : Nat
  startCol : Nat
  endLine : Nat
  endCol : Nat
  deriving DecidableEq, Repr

namespace Span

def zero : Span := ⟨0, 0, 0, 0⟩

def point (line col : Nat) : Span := ⟨line, col, line, col⟩

def containsLine (s : Span) (line : Nat) : Bool := s.startLine ≤ line && line ≤ s.endLine

def fields (s : Span) : List Nat := [s.startLine, s.startCol, s.endLine, s.endCol]

/-- By the start first, line before column. -/
instance : Ord Span := ⟨compareOn fields⟩

def text (s : Span) : String := toString s.startLine ++ ":" ++ toString s.startCol

end Span

end CallOrder
