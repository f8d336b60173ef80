import CallOrder.Compilation
import CallOrder.Proofs.Extent

/-!
Patterns that differ only in how their chains are nested. Main statement: a pattern compiles to the
same automata as its normal form, in which every chain leans to the left.
-/

namespace CallOrder

namespace Chain

def combine : Chain → Pattern → Pattern → Pattern
  | sequence => .sequence
  | alternative => .alternative

def join (chain : Chain) : (before : Option Pattern) → (p : Pattern) → Pattern
  | none, p => p
  | some before, p => chain.combine before p

end Chain

namespace Pattern

/-- Puts the operands of `p` behind what is there already, one by one, where the chains in them lean
to the left as well. -/
def leaning (chain : Chain) (before : Option Pattern) : (p : Pattern) → Pattern
  | terminal base token => chain.join before (terminal base token)
  | sequence left right =>
    match chain with
    | .sequence => right.leaning .sequence (some (left.leaning .sequence before))
    | .alternative =>
      Chain.alternative.join before
        (right.leaning .sequence (some (left.leaning .sequence none)))
  | alternative left right =>
    match chain with
    | .sequence =>
      Chain.sequence.join before
        (right.leaning .alternative (some (left.leaning .alternative none)))
    | .alternative => right.leaning .alternative (some (left.leaning .alternative before))
  | quantified child kind bound =>
    chain.join before (quantified (child.leaning .sequence none) kind bound)

/-- The pattern with each of its chains rebuilt as a left-leaning one. -/
def normal (p : Pattern) : Pattern := p.leaning .sequence none

theorem leaning_none (chain : Chain) (p : Pattern) : p.leaning chain none = p.normal := by
  cases p <;> cases chain <;> rfl

theorem leaning_combine (chain own : Chain) (before : Option Pattern) (left right : Pattern) :
    (own.combine left right).leaning chain before =
      if chain = own then right.leaning own (some (left.leaning own before))
      else chain.join before (right.leaning own (some (left.leaning own none))) := by
  cases chain <;> cases own <;> rfl

theorem leaning_eq_foldl (chain : Chain) (before : Option Pattern) (p : Pattern) :
    some (p.leaning chain before) = ((p.operands chain).map normal).foldl
      (fun before q => some (chain.join before q)) before := by
  induction p generalizing chain before with
  | terminal base token => cases chain <;> rfl
  | sequence left right ihl ihr =>
      cases chain with
      | sequence =>
          rw [operands, List.map_append, List.foldl_append, ← ihl, ← ihr]
          rfl
      | alternative => rfl
  | alternative left right ihl ihr =>
      cases chain with
      | sequence => rfl
      | alternative =>
          rw [operands, List.map_append, List.foldl_append, ← ihl, ← ihr]
          rfl
  | quantified child kind bound ih => cases chain <;> rfl

/-- The normal form of a chain is the left-leaning chain of the normal forms of its operands. -/
theorem chain_normal (chain : Chain) (p : Pattern) :
    Pattern.chain chain.combine ((p.operands chain).map normal) = .ok p.normal := by
  have folded := leaning_eq_foldl chain none p
  rw [leaning_none] at folded
  obtain ⟨first, rest, listed⟩ := List.exists_cons_of_ne_nil (operands_ne_nil chain p)
  have further : (rest.map normal).foldl (fun before q => some (chain.join before q))
      (some first.normal) = some ((rest.map normal).foldl chain.combine first.normal) :=
    List.foldl_hom some fun _ _ => rfl
  rw [listed, List.map_cons, List.foldl_cons] at folded
  rw [listed, List.map_cons, Pattern.chain]
  exact congrArg Except.ok (Option.some.inj (further.symm.trans folded.symm))

example : (sequence (terminal "x" "a") (sequence (terminal "x" "b")
    (alternative (terminal "x" "c") (terminal "x" "d")))).normal =
    sequence (sequence (terminal "x" "a") (terminal "x" "b"))
      (alternative (terminal "x" "c") (terminal "x" "d")) := rfl

theorem leaves_join (chain : Chain) (before : Option Pattern) (p : Pattern) :
    (chain.join before p).leaves = before.elim [] leaves ++ p.leaves := by
  cases before with
  | none => rfl
  | some before => cases chain <;> simp [Chain.join, Chain.combine]

theorem leaves_leaning (chain : Chain) (before : Option Pattern) (p : Pattern) :
    (p.leaning chain before).leaves = before.elim [] leaves ++ p.leaves := by
  induction p generalizing chain before with
  | terminal base token => exact leaves_join chain before _
  | sequence left right ihl ihr =>
      cases chain <;> simp [leaning, leaves_join, ihl, ihr]
  | alternative left right ihl ihr =>
      cases chain <;> simp [leaning, leaves_join, ihl, ihr]
  | quantified child kind bound ih => simp [leaning, leaves_join, ih]

theorem leaves_normal (p : Pattern) : p.normal.leaves = p.leaves := leaves_leaning .sequence none p

end Pattern

namespace Plan

variable (limits : Limits)

def ofOperands : (chain : Chain) → (operands : List (Work Fragment)) → Plan
  | .sequence, operands =>
    { Plan.single (Fragment.nested limits do
        Fragment.orElse (← Fragment.appendAll operands none) (throw (.construction .emptyGroup)))
      with inSequence := operands }
  | .alternative, operands =>
    { Plan.single (Fragment.nested limits do
        Fragment.orElse (← Fragment.unionAll limits operands none)
          (throw (.construction .emptyGroup)))
      with inAlternative := operands }

def operands (plan : Plan) : Chain → List (Work Fragment)
  | .sequence => plan.inSequence
  | .alternative => plan.inAlternative

def join (chain : Chain) : (before : Option Plan) → (next : Plan) → Plan
  | none, next => next
  | some before, next => ofOperands limits chain (before.operands chain ++ next.operands chain)

theorem operands_ofOperands (chain : Chain) (operands : List (Work Fragment)) :
    (ofOperands limits chain operands).operands chain = operands := by
  cases chain <;> rfl

theorem join_assoc (chain : Chain) (before : Option Plan) (left right : Plan) :
    join limits chain (some (join limits chain before left)) right =
      join limits chain before (join limits chain (some left) right) := by
  cases before with
  | none => rfl
  | some before => simp only [join, operands_ofOperands, List.append_assoc]

end Plan

namespace Pattern

variable (limits : Limits)

theorem plan_combine (chain : Chain) (left right : Pattern) :
    (chain.combine left right).plan limits =
      Plan.join limits chain (some (left.plan limits)) (right.plan limits) := by
  cases chain <;> rfl

theorem plan_join (chain : Chain) (before : Option Pattern) (p : Pattern) :
    (chain.join before p).plan limits =
      Plan.join limits chain (before.map (plan limits)) (p.plan limits) := by
  cases before with
  | none => rfl
  | some before => exact plan_combine limits chain before p

/-- What `p` is planned as behind anything else does not change if it is made to lean. -/
def PlannedAlike (p : Pattern) : Prop := ∀ (chain : Chain) (before : Option Pattern),
  (p.leaning chain before).plan limits =
    Plan.join limits chain (before.map (plan limits)) (p.plan limits)

variable {limits}

theorem plannedAlike_combine {left right : Pattern} (own : Chain)
    (leftAlike : left.PlannedAlike limits) (rightAlike : right.PlannedAlike limits) :
    (own.combine left right).PlannedAlike limits := by
  intro chain before
  have rebuilt : ∀ before, (right.leaning own (some (left.leaning own before))).plan limits =
      Plan.join limits own (before.map (plan limits)) ((own.combine left right).plan limits) := by
    intro before
    calc
      _ = Plan.join limits own (some ((left.leaning own before).plan limits))
            (right.plan limits) := rightAlike own _
      _ = Plan.join limits own
            (some (Plan.join limits own (before.map (plan limits)) (left.plan limits)))
            (right.plan limits) := by rw [leftAlike]
      _ = Plan.join limits own (before.map (plan limits))
            (Plan.join limits own (some (left.plan limits)) (right.plan limits)) :=
          Plan.join_assoc limits own _ _ _
      _ = _ := by rw [plan_combine]
  rw [leaning_combine]
  split
  case isTrue same =>
    subst same
    exact rebuilt before
  case isFalse other =>
    -- in a chain of the other kind the whole of it is one operand
    rw [plan_join, rebuilt none]
    rfl

theorem plannedAlike (p : Pattern) : p.PlannedAlike limits := by
  induction p with
  | terminal base token => exact fun chain before => plan_join limits chain before _
  | sequence left right ihl ihr => exact plannedAlike_combine .sequence ihl ihr
  | alternative left right ihl ihr => exact plannedAlike_combine .alternative ihl ihr
  | quantified child kind bound ih =>
      intro chain before
      have inside : (child.leaning .sequence none).plan limits = child.plan limits :=
        ih .sequence none
      rw [leaning, plan_join, plan, inside]
      rfl

theorem build_normal (limits : Limits) (p : Pattern) : p.normal.build limits = p.build limits :=
  congrArg Plan.whole (p.plannedAlike .sequence none)

theorem toNfa_normal (limits : Limits) (p : Pattern) : p.normal.toNfa limits = p.toNfa limits := by
  rw [toNfa, toNfa, build_normal]

theorem bases_normal (p : Pattern) : p.normal.bases = p.bases := by
  rw [bases, bases, leaves_normal]

/-- Chains may be nested in any way: what a pattern compiles to, or why it does not compile, is read
off its normal form, in which every chain is the left-leaning one of its operands, inside of
quantifiers as well. -/
theorem compile_normal :
    (∀ base token, (terminal base token).normal = terminal base token) ∧
    (∀ child kind bound,
      (quantified child kind bound).normal = quantified child.normal kind bound) ∧
    (∀ (chain : Chain) (p : Pattern),
      Pattern.chain chain.combine ((p.operands chain).map normal) = .ok p.normal) ∧
    ∀ (limits : Limits) (p : Pattern),
      p.normal.toNfa limits = p.toNfa limits ∧ p.normal.compile limits = p.compile limits := by
  refine ⟨fun _ _ => rfl, fun _ _ _ => rfl, chain_normal, fun limits p => ?_⟩
  apply And.intro (toNfa_normal limits p)
  rw [compile, compile, toNfa_normal, bases_normal]

end Pattern

end CallOrder
