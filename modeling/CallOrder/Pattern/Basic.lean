import Std.Data.ExtTreeSet

/-!
Patterns of calls: which calls on one receiver may follow each other, in the manner of a regular
expression over call names. A pattern is a binary tree, immutable once built. Groups and sets of
any length are left-leaning chains of it.
-/

namespace CallOrder

/-- The abstract name of a call within a rule. -/
abbrev Token := String

/-- The receiver that a call is made on. -/
abbrev Base := String

inductive Quantifier where
  | exactly
  | between
  | atLeast
  | maybe
  | option
  deriving DecidableEq, Repr

/-- How often to repeat: `count` for one number, `range` for an inclusive interval. -/
inductive Bound where
  | count (n : Nat)
  | range (min max : Nat)
  deriving DecidableEq, Repr

inductive Pattern where
  /-- One call of `token` on the receiver named `base`. -/
  | terminal (base : Base) (token : Token)
  | sequence (left right : Pattern)
  | alternative (left right : Pattern)
  | quantified (child : Pattern) (kind : Quantifier) (bound : Option Bound)
  deriving DecidableEq, Repr

inductive ConstructionError where
  | emptyGroup
  | missingBound (kind : Quantifier)
  deriving DecidableEq, Repr

namespace Quantifier

def requiresBound : Quantifier → Bool
  | exactly | between | atLeast => true
  | maybe | option => false

end Quantifier

namespace Pattern

/-- Repeats `child`. Only the presence of a bound is checked here; whether it suits the quantifier
is found out when the pattern is compiled. -/
def quantify (child : Pattern) (kind : Quantifier) (bound : Option Bound) :
    Except ConstructionError Pattern :=
  if kind.requiresBound && bound.isNone then .error (.missingBound kind)
  else .ok (.quantified child kind bound)

def chain (combine : Pattern → Pattern → Pattern) : List Pattern → Except ConstructionError Pattern
  | [] => .error .emptyGroup
  | first :: rest => .ok (rest.foldl combine first)

def group : List Pattern → Except ConstructionError Pattern := chain sequence

def set : List Pattern → Except ConstructionError Pattern := chain alternative

def leavesAux : (p : Pattern) → (after : List (Base × Token)) → List (Base × Token)
  | terminal base token, after => (base, token) :: after
  | sequence left right, after => left.leavesAux (right.leavesAux after)
  | alternative left right, after => left.leavesAux (right.leavesAux after)
  | quantified child _ _, after => child.leavesAux after

def leaves (p : Pattern) : List (Base × Token) := p.leavesAux []

def terminals (p : Pattern) : List Pattern := p.leaves.map fun leaf => terminal leaf.1 leaf.2

def tokens (p : Pattern) : Std.ExtTreeSet Token := .ofList (p.leaves.map (·.2))

def bases (p : Pattern) : Std.ExtTreeSet Base := .ofList (p.leaves.map (·.1))

theorem leavesAux_eq (p : Pattern) (after : List (Base × Token)) :
    p.leavesAux after = p.leaves ++ after := by
  induction p generalizing after with
  | terminal base token => rfl
  | sequence left right ihl ihr =>
    rw [leavesAux, leaves, leavesAux, ihl, ihr, ihl (right.leavesAux []), ihr []]
    simp
  | alternative left right ihl ihr =>
    rw [leavesAux, leaves, leavesAux, ihl, ihr, ihl (right.leavesAux []), ihr []]
    simp
  | quantified child kind bound ih => exact ih after

@[simp] theorem leaves_terminal (base : Base) (token : Token) :
    (terminal base token).leaves = [(base, token)] := rfl

@[simp] theorem leaves_sequence (left right : Pattern) :
    (sequence left right).leaves = left.leaves ++ right.leaves := by
  rw [leaves, leavesAux, leavesAux_eq, leavesAux_eq right, List.append_nil]

@[simp] theorem leaves_alternative (left right : Pattern) :
    (alternative left right).leaves = left.leaves ++ right.leaves := by
  rw [leaves, leavesAux, leavesAux_eq, leavesAux_eq right, List.append_nil]

@[simp] theorem leaves_quantified (child : Pattern) (kind : Quantifier) (bound : Option Bound) :
    (quantified child kind bound).leaves = child.leaves := rfl

end Pattern

end CallOrder
