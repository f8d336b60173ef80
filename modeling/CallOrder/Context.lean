import CallOrder.Operation
import CallOrder.Rule

/-!
The context of a judgement: the rule, and for each of its parameters the instance that it is judged
on, which says what operations the tokens stand for.
-/

namespace CallOrder

structure Instance where
  name : String
  operations : OperationTable
  deriving DecidableEq, Repr

structure Context where
  rule : Rule
  parameters : Std.ExtTreeMap String Instance
  deriving DecidableEq, Repr

namespace Instance

def empty (name : String) : Instance := ⟨name, ∅⟩

def withOperation (i : Instance) (token : Token) (operation : Operation) : Instance :=
  { i with operations := i.operations.insert token operation }

def operation? (i : Instance) (token : Token) : Option Operation := i.operations[token]?

end Instance

namespace Context

def ofRule (rule : Rule) : Context := ⟨rule, ∅⟩

def bind (c : Context) (parameter : String) (i : Instance) : Context :=
  { c with parameters := c.parameters.insert parameter i }

def instance? (c : Context) (parameter : String) : Option Instance := c.parameters[parameter]?

/-- What all instances bind. Of several bindings of a token the one of the greatest parameter
holds. -/
def operations (c : Context) : OperationTable :=
  c.parameters.toList.foldl (fun table entry => table.insertMany entry.2.operations.toList) ∅

end Context

end CallOrder
