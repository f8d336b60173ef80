import CallOrder.Queries
import CallOrder.Search

/-!
Recorded programs: occurrences, and which may run directly after which.
-/

namespace CallOrder

structure Program where
  arena : Arena
  /-- For each occurrence those that may run directly after it, each once. -/
  flow : Array (List OccurrenceId)
  deriving DecidableEq, Repr

namespace Program

def empty : Program := ⟨.empty, #[]⟩

def addOccurrence (p : Program) (occurrence : Occurrence) : Program :=
  ⟨p.arena.push occurrence, p.flow.push []⟩

def check (p : Program) (id : OccurrenceId) : Except QueryError Unit :=
  if id < p.flow.size then .ok () else .error (.unknownOccurrence id)

def successors (p : Program) (id : OccurrenceId) : List OccurrenceId := p.flow.getD id []

/-- Records that `target` may run directly after `source`. -/
def addFlow (p : Program) (source target : OccurrenceId) : Except QueryError Program := do
  p.check source
  p.check target
  if (p.successors source).contains target then return p
  else return { p with flow := p.flow.modify source (· ++ [target]) }

/-- Records that each occurrence may run directly after the one before it. What comes before a
failure stays recorded. -/
def addChain (p : Program) : List OccurrenceId → Except QueryError Unit × Program
  | source :: target :: rest =>
    match p.addFlow source target with
    | .ok p => p.addChain (target :: rest)
    | .error e => (.error e, p)
  | _ => (.ok (), p)

def flowCount (p : Program) : Nat := p.flow.foldl (fun count targets => count + targets.length) 0

def resolve (p : Program) (op : Operation) : OccurrenceSet :=
  .ofList (p.arena.byTarget op.target).toList

def fits (p : Program) (op : Operation) (id : OccurrenceId) : Bool :=
  (p.arena.get? id).any (·.fits op)

def resolveFitting (p : Program) (op : Operation) : OccurrenceSet :=
  .ofList ((p.arena.byTarget op.target).toList.filter (p.fits op))

/-- Whether one or more steps of the flow lead from `source` to `target`. -/
def reachable (p : Program) (source target : OccurrenceId) : Except QueryError Bool := do
  p.check source
  p.check target
  return (Search.reach p.successors p.flowCount (p.successors source)).contains target

/-- The token of an occurrence: the first of the table whose operation it fits. -/
def label? (operations : OperationTable) (occurrence : Occurrence) : Option Token :=
  (operations.toList.find? fun entry => occurrence.fits entry.2).map (·.1)

def step? (base : Base) (operations : OperationTable) (id : OccurrenceId)
    (occurrence : Occurrence) : Option TraceStep :=
  if occurrence.base = some base then
    (label? operations occurrence).map fun token => ⟨id, token, occurrence.position⟩
  else none

def extend (base : Base) (operations : OperationTable) (steps : List TraceStep)
    (next : Occurrence × OccurrenceId) : List TraceStep :=
  match step? base operations next.2 next.1 with
  | some step => step.insert steps
  | none => steps

def traceOf (p : Program) (base : Base) (operations : OperationTable) : Trace :=
  ⟨base, p.arena.occurrences.toList.zipIdx.foldl (extend base operations) []⟩

def queries (p : Program) : Queries where
  arena := p.arena
  resolve op := .ok (p.resolve op)
  resolveFitting op := .ok (p.resolveFitting op)
  reachable := p.reachable
  traceOf base operations := .ok (p.traceOf base operations)

end Program

end CallOrder
