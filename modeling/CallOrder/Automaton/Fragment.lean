import CallOrder.Automaton.Nfa
import CallOrder.Error
import CallOrder.Limits

/-!
Fragments: parts of a nondeterministic automaton with one entry and one exit, put together on a
workbench. Putting together only adds states and edges.
-/

namespace CallOrder

structure Fragment where
  start : Nat
  accept : Nat
  deriving DecidableEq, Repr

structure Workbench where
  nfa : Nfa
  /-- How many patterns are open, one inside the other. -/
  depth : Nat
  deriving DecidableEq, Repr

/-- A piece of work at the workbench, which stays as it was left even where the work fails. -/
abbrev Work (α : Type) := ExceptT Error (StateM Workbench) α

namespace Fragment

/-- A new state, as long as the limit leaves room for one. -/
def newState (limits : Limits) : Work Nat := fun bench =>
  if bench.nfa.size < limits.maxNfaStates then
    (.ok bench.nfa.size, { bench with nfa := bench.nfa.addState })
  else (.error (.automatonLimit limits.maxNfaStates (bench.nfa.size + 1)), bench)

def connect (source : Nat) (label : Option Token) (target : Nat) : Work Unit :=
  modify fun bench => { bench with nfa := bench.nfa.addEdge source label target }

def ends (limits : Limits) : Work Fragment := do
  let start ← newState limits
  let accept ← newState limits
  return ⟨start, accept⟩

def single (limits : Limits) (label : Option Token) : Work Fragment := do
  let whole ← ends limits
  connect whole.start label whole.accept
  return whole

def concat (left right : Fragment) : Work Fragment := do
  connect left.accept none right.start
  return ⟨left.start, right.accept⟩

/-- First what is there already, if anything, then `next`. -/
def append : Option Fragment → Fragment → Work Fragment
  | none, next => return next
  | some before, next => concat before next

def union (limits : Limits) (left right : Fragment) : Work Fragment := do
  let whole ← ends limits
  connect whole.start none left.start
  connect whole.start none right.start
  connect left.accept none whole.accept
  connect right.accept none whole.accept
  return whole

def optional (limits : Limits) (inner : Fragment) : Work Fragment := do
  let whole ← ends limits
  connect whole.start none inner.start
  connect whole.start none whole.accept
  connect inner.accept none whole.accept
  return whole

def star (limits : Limits) (inner : Fragment) : Work Fragment := do
  let whole ← optional limits inner
  connect inner.accept none inner.start
  return whole

def appendTimes (work : Work Fragment) : (count : Nat) → Option Fragment → Work (Option Fragment)
  | 0, before => return before
  | count + 1, before => do
    let next ← work
    appendTimes work count (some (← append before next))

/-- The pieces of work one after the other, each behind what is there already. -/
def appendAll : List (Work Fragment) → Option Fragment → Work (Option Fragment)
  | [], before => return before
  | work :: rest, before => do
    let next ← work
    appendAll rest (some (← append before next))

def unionAll (limits : Limits) : List (Work Fragment) → Option Fragment → Work (Option Fragment)
  | [], before => return before
  | work :: rest, before => do
    let next ← work
    match before with
    | none => unionAll limits rest (some next)
    | some before => unionAll limits rest (some (← union limits before next))

def orElse : Option Fragment → Work Fragment → Work Fragment
  | some fragment, _ => return fragment
  | none, work => work

end Fragment

end CallOrder
