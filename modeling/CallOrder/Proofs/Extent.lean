import CallOrder.Limits
import CallOrder.Pattern.Basic
import Mathlib.Algebra.Order.Ring.Nat

/-! The extent of a pattern: how deep it nests and how many states its automaton takes, where a
chain of sequences or of alternatives is one level with all its operands. -/

namespace CallOrder

inductive Chain where
  | sequence
  | alternative
  deriving DecidableEq, Repr

namespace Pattern

/-- The operands of `p` in a chain that it is part of. -/
def operands (chain : Chain) : (p : Pattern) → List Pattern
  | sequence left right =>
    match chain with
    | .sequence => left.operands .sequence ++ right.operands .sequence
    | .alternative => [sequence left right]
  | alternative left right =>
    match chain with
    | .sequence => [alternative left right]
    | .alternative => left.operands .alternative ++ right.operands .alternative
  | p => [p]

def Suits (limits : Limits) : Quantifier → Option Bound → Prop
  | .maybe, none | .option, none => True
  | .exactly, some (.count n) | .atLeast, some (.count n) => n ≤ limits.maxBound
  | .between, some (.range min max) => min ≤ max ∧ max ≤ limits.maxBound
  | _, _ => False

def Consistent (limits : Limits) : Pattern → Prop
  | terminal _ _ => True
  | sequence left right | alternative left right => left.Consistent limits ∧ right.Consistent limits
  | quantified child kind bound => child.Consistent limits ∧ Suits limits kind bound

/-- How many copies of its child a repetition is built from. -/
def copies : Quantifier → Option Bound → Nat
  | .maybe, _ | .option, _ => 1
  | .exactly, some (.count n) => n
  | .atLeast, some (.count n) => n + 1
  | .between, some (.range _ max) => max
  | _, _ => 0

/-- As `Consistent`, but of the bounds in what is repeated no times at all nothing is asked. -/
def ConsistentAsBuilt (limits : Limits) : Pattern → Prop
  | terminal _ _ => True
  | sequence left right | alternative left right =>
    left.ConsistentAsBuilt limits ∧ right.ConsistentAsBuilt limits
  | quantified child kind bound =>
    (copies kind bound ≠ 0 → child.ConsistentAsBuilt limits) ∧ Suits limits kind bound

theorem Consistent.asBuilt {limits : Limits} {p : Pattern} (consistent : p.Consistent limits) :
    p.ConsistentAsBuilt limits := by
  induction p with
  | terminal base token => trivial
  | sequence left right ihl ihr => exact ⟨ihl consistent.1, ihr consistent.2⟩
  | alternative left right ihl ihr => exact ⟨ihl consistent.1, ihr consistent.2⟩
  | quantified child kind bound ih => exact ⟨fun _ => ih consistent.1, consistent.2⟩

/-- The levels of `p` where it is part of the chain `outer`, of which it is no level of its own. -/
def levelsIn (outer : Option Chain) : (p : Pattern) → Nat
  | terminal _ _ => 1
  | sequence left right =>
    (if outer = some .sequence then 0 else 1) +
      max (left.levelsIn (some .sequence)) (right.levelsIn (some .sequence))
  | alternative left right =>
    (if outer = some .alternative then 0 else 1) +
      max (left.levelsIn (some .alternative)) (right.levelsIn (some .alternative))
  | quantified child kind bound => if copies kind bound = 0 then 1 else 1 + child.levelsIn none

def depth (p : Pattern) : Nat := p.levelsIn none

def repeatedSize (size : Nat) : Quantifier → Option Bound → Nat
  | .maybe, _ | .option, _ => size + 2
  | .exactly, some (.count n) => if n = 0 then 2 else n * size
  | .atLeast, some (.count n) => (n + 1) * size + 2
  | .between, some (.range min max) => if max = 0 then 2 else max * size + 2 * (max - min)
  | _, _ => 0

def size : Pattern → Nat
  | terminal _ _ => 2
  | sequence left right => left.size + right.size
  | alternative left right => left.size + right.size + 2
  | quantified child kind bound => repeatedSize child.size kind bound

def greatest (numbers : List Nat) : Nat := numbers.foldr max 0

theorem greatest_append (first second : List Nat) :
    greatest (first ++ second) = max (greatest first) (greatest second) := by
  induction first with
  | nil => simp [greatest]
  | cons n first ih =>
      simp only [greatest, List.cons_append, List.foldr_cons] at ih ⊢
      rw [ih, max_assoc]

/-- Works off a stack of patterns. On top of it a node of the chain gives way to its two sides, and
any other pattern is an operand, behind those that have been `found`. -/
def unstack (chain : Chain) (found stack : List Pattern) : List Pattern :=
  match chain, stack with
  | _, [] => found
  | .sequence, sequence left right :: stack => unstack .sequence found (left :: right :: stack)
  | .alternative, alternative left right :: stack =>
    unstack .alternative found (left :: right :: stack)
  | chain, operand :: stack => unstack chain (found ++ [operand]) stack
termination_by (stack.map sizeOf).sum
decreasing_by
  · simp only [List.map_cons, List.sum_cons, sequence.sizeOf_spec]
    omega
  · simp only [List.map_cons, List.sum_cons, alternative.sizeOf_spec]
    omega
  · cases operand <;> simp

theorem unstack_eq (chain : Chain) (found stack : List Pattern) :
    unstack chain found stack = found ++ stack.flatMap (·.operands chain) := by
  fun_induction unstack chain found stack with
  | case1 => simp
  | case2 found left right stack ih => simp [ih, operands]
  | case3 found left right stack ih => simp [ih, operands]
  | case4 found chain operand stack inSequence inAlternative ih =>
      have single : operand.operands chain = [operand] := by
        cases operand with
        | terminal base token => rfl
        | sequence left right => cases chain with
          | sequence => exact (inSequence left right rfl rfl).elim
          | alternative => rfl
        | alternative left right => cases chain with
          | sequence => rfl
          | alternative => exact (inAlternative left right rfl rfl).elim
        | quantified child kind bound => rfl
      rw [ih, List.flatMap_cons, single, List.append_assoc]

theorem operands_ne_nil (chain : Chain) (p : Pattern) : p.operands chain ≠ [] := by
  induction p with
  | terminal => simp [operands]
  | sequence left right ihl ihr => cases chain <;> simp [operands, ihl]
  | alternative left right ihl ihr => cases chain <;> simp [operands, ihl]
  | quantified => simp [operands]

theorem greatest_depth_operands (chain : Chain) (p : Pattern) :
    greatest ((p.operands chain).map depth) = p.levelsIn (some chain) := by
  induction p with
  | terminal base token => simp [operands, greatest, depth, levelsIn]
  | sequence left right ihl ihr =>
      cases chain with
      | sequence => simp [operands, greatest_append, ihl, ihr, levelsIn]
      | alternative => simp [operands, greatest, depth, levelsIn]
  | alternative left right ihl ihr =>
      cases chain with
      | sequence => simp [operands, greatest, depth, levelsIn]
      | alternative => simp [operands, greatest_append, ihl, ihr, levelsIn]
  | quantified child kind bound ih => simp [operands, greatest, depth, levelsIn]

theorem depth_sequence (left right : Pattern) : (sequence left right).depth =
    1 + greatest (((sequence left right).operands .sequence).map depth) := by
  rw [greatest_depth_operands]
  simp [depth, levelsIn]

theorem depth_alternative (left right : Pattern) : (alternative left right).depth =
    1 + greatest (((alternative left right).operands .alternative).map depth) := by
  rw [greatest_depth_operands]
  simp [depth, levelsIn]

theorem depth_quantified (child : Pattern) (kind : Quantifier) (bound : Option Bound) :
    (quantified child kind bound).depth = if copies kind bound = 0 then 1 else 1 + child.depth :=
  rfl

theorem sum_size_operands (p : Pattern) : ((p.operands .sequence).map size).sum = p.size := by
  induction p with
  | terminal base token => simp [operands]
  | sequence left right ihl ihr => simp [operands, ihl, ihr, size]
  | alternative left right ihl ihr => simp [operands]
  | quantified child kind bound ih => simp [operands]

theorem sum_size_operands_add (p : Pattern) :
    ((p.operands .alternative).map size).sum + 2 * ((p.operands .alternative).length - 1) =
      p.size := by
  induction p with
  | terminal base token => simp [operands]
  | sequence left right ihl ihr => simp [operands]
  | alternative left right ihl ihr =>
      have some := List.length_pos_iff.mpr (operands_ne_nil .alternative left)
      have more := List.length_pos_iff.mpr (operands_ne_nil .alternative right)
      simp only [operands, List.map_append, List.sum_append, List.length_append, size]
      omega
  | quantified child kind bound ih => simp [operands]

end Pattern

end CallOrder
