import CallOrder.Order

/-!
Scripts: orders written step by step, with blocks inside blocks. Every block is folded into one
pattern as it closes, inner blocks before outer ones, and the first fault met on the way is what
closing the outermost block reports.
-/

namespace CallOrder

inductive Grouping where
  | group
  | set
  deriving DecidableEq, Repr

def Grouping.fold : Grouping → List Pattern → Except ConstructionError Pattern
  | group => Pattern.group
  | set => Pattern.set

inductive Step where
  /-- A terminal on the base of the script. -/
  | token (token : Token)
  /-- A terminal on a base of its own. -/
  | terminal (base : Base) (token : Token)
  /-- A terminal whose token is bound to `operation`. -/
  | bind (token : Token) (operation : Operation)
  | pattern (pattern : Pattern)
  | block (grouping : Grouping) (steps : List Step)
  | alternative (left right : List Step)
  | quantified (kind : Quantifier) (bound : Option Bound) (steps : List Step)
  deriving Repr

namespace Step

def maybe (steps : List Step) : Step := quantified .maybe none steps

def option (steps : List Step) : Step := quantified .option none steps

def exactly (n : Nat) (steps : List Step) : Step := quantified .exactly (some (.count n)) steps

def atLeast (n : Nat) (steps : List Step) : Step := quantified .atLeast (some (.count n)) steps

def between (min max : Nat) (steps : List Step) : Step :=
  quantified .between (some (.range min max)) steps

def oneOrMore (steps : List Step) : Step := atLeast 1 steps

def zeroOrMore (steps : List Step) : Step := atLeast 0 steps

end Step

structure Draft where
  members : Array Pattern
  operations : OperationTable
  fault : Option ConstructionError
  deriving Repr

namespace Draft

def empty : Draft := ⟨#[], ∅, none⟩

def push (d : Draft) (p : Pattern) : Draft := { d with members := d.members.push p }

def bind (d : Draft) (token : Token) (operation : Operation) : Draft :=
  { d with operations := d.operations.insert token operation }

def record (d : Draft) (e : ConstructionError) : Draft :=
  { d with fault := d.fault.or (some e) }

def pushOrRecord (d : Draft) : Except ConstructionError Pattern → Draft
  | .ok p => d.push p
  | .error e => d.record e

def recordFault (d : Draft) : Except ConstructionError Pattern → Draft
  | .ok _ => d
  | .error e => d.record e

/-- Binds what a block inside this one has bound, over whatever is bound so far. -/
def adopt (d inner : Draft) : Draft :=
  { d with operations := d.operations.insertMany inner.operations.toList }

def close (d : Draft) (grouping : Grouping) : Except ConstructionError Pattern :=
  match d.fault with
  | some e => .error e
  | none => grouping.fold d.members.toList

end Draft

mutual

def Step.run (base : Base) (d : Draft) : Step → Draft
  | .token name => d.push (.terminal base name)
  | .terminal own name => d.push (.terminal own name)
  | .bind name operation => (d.bind name operation).push (.terminal base name)
  | .pattern p => d.push p
  | .block grouping steps =>
    let inner := Step.runAll base .empty steps
    (d.adopt inner).pushOrRecord (inner.close grouping)
  | .alternative left right =>
    let first := Step.runAll base .empty left
    let second := Step.runAll base .empty right
    let after := (d.adopt first).adopt second
    match first.close .group, second.close .group with
    | .ok l, .ok r => after.push (.alternative l r)
    | l, r => (after.recordFault l).recordFault r
  | .quantified kind bound steps =>
    let inner := Step.runAll base .empty steps
    (d.adopt inner).pushOrRecord do (← inner.close .group).quantify kind bound

def Step.runAll (base : Base) (d : Draft) : List Step → Draft
  | [] => d
  | step :: steps => Step.runAll base (step.run base d) steps

end

/-- A script: its steps make up one block on one base. -/
structure Script where
  base : Base
  grouping : Grouping
  steps : List Step
  deriving Repr

namespace Script

def draft (s : Script) : Draft := Step.runAll s.base .empty s.steps

def close (s : Script) : Except ConstructionError Pattern := s.draft.close s.grouping

def finish (s : Script) : Except ConstructionError Order :=
  return ⟨← s.close, s.draft.operations⟩

/-- How many members the outermost block has after each of its steps. -/
def sizes (s : Script) : List Nat := go .empty s.steps
where
  go (d : Draft) : List Step → List Nat
    | [] => []
    | step :: steps =>
      let d := step.run s.base d
      d.members.size :: go d steps

end Script

end CallOrder
