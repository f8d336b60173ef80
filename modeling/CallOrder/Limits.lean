/-!
How large an automaton may grow while a pattern is compiled.
-/

namespace CallOrder

structure Limits where
  maxNfaStates : Nat
  maxDfaStates : Nat
  /-- The largest count that a repetition may ask for. -/
  maxBound : Nat
  /-- How deep patterns may nest, where a chain of any length is one level. -/
  maxDepth : Nat
  deriving DecidableEq, Repr

namespace Limits

def standard : Limits := ⟨10000, 4096, 256, 128⟩

end Limits

end CallOrder
