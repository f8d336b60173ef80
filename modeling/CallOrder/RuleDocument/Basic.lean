import CallOrder.Error
import CallOrder.Rule
import CallOrder.Script

/-!
Rule documents: an order with its operations and messages, as a user writes it down.
-/

namespace CallOrder

inductive Form where
  | group
  | set
  | maybe
  | option
  | oneOrMore
  | zeroOrMore
  | exactly (n : Nat)
  | atLeast (n : Nat)
  | between (min max : Nat)
  deriving DecidableEq, Repr

/-- An entry of an order: a token or a list of entries. -/
inductive Entry where
  | token (name : Token)
  | block (form : Form) (entries : List Entry)
  deriving Repr

structure RuleDocument where
  rule : String
  base : Base
  failMessage : Option String
  passMessage : Option String
  severity : Severity
  operations : OperationTable
  /-- One entry after the other. -/
  order : List Entry
  deriving Repr

def Form.step : Form → List Step → Step
  | group => .block .group
  | set => .block .set
  | maybe => .maybe
  | option => .option
  | oneOrMore => .oneOrMore
  | zeroOrMore => .zeroOrMore
  | exactly n => .exactly n
  | atLeast n => .atLeast n
  | between min max => .between min max

namespace Entry

mutual

def unknown? (operations : OperationTable) : Entry → Option Token
  | token name => if operations.contains name then none else some name
  | block _ entries => unknownIn? operations entries

def unknownIn? (operations : OperationTable) : List Entry → Option Token
  | [] => none
  | entry :: entries => (entry.unknown? operations).or (unknownIn? operations entries)

end

mutual

def step (operations : OperationTable) : Entry → Step
  | token name =>
    match operations[name]? with
    | some operation => .bind name operation
    | none => .token name
  | block form entries => form.step (steps operations entries)

def steps (operations : OperationTable) : List Entry → List Step
  | [] => []
  | entry :: entries => entry.step operations :: steps operations entries

end

end Entry

namespace RuleDocument

def info (d : RuleDocument) : Rule := ⟨d.rule, d.failMessage, d.passMessage, d.severity⟩

def script (d : RuleDocument) : Script := ⟨d.base, .group, Entry.steps d.operations d.order⟩

def resolve (d : RuleDocument) : Except Error (Rule × Order) :=
  match Entry.unknownIn? d.operations d.order with
  | some name => .error (.document (.unknownToken name))
  | none =>
    match d.script.finish with
    | .ok order => .ok (d.info, order)
    | .error e => .error (.construction e)

end RuleDocument

end CallOrder
