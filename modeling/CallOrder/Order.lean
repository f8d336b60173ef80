import CallOrder.Operation

/-!
An order: a pattern together with the operations that it binds to its tokens.
-/

namespace CallOrder

structure Order where
  root : Pattern
  operations : OperationTable
  deriving DecidableEq, Repr

namespace Order

def ofPattern (root : Pattern) : Order := ⟨root, ∅⟩

/-- Binds `operations` as well; they win over earlier bindings of the same token. -/
def bindAll (order : Order) (operations : OperationTable) : Order :=
  { order with operations := order.operations.insertMany operations.toList }

end Order

end CallOrder
