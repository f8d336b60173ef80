/-!
Whole numbers as floating-point numbers of double width hold them: rounded to 53 significant bits,
and below a bound.
-/

namespace CallOrder.Double

/-- The smallest number that rounds to no finite one: half a unit in the last place beyond the
largest. -/
def bound : Nat := Nat.pow 2 1024 - Nat.pow 2 970

def nearestMultiple (unit n : Nat) : Nat :=
  let below := n / unit
  let twice := 2 * (n % unit)
  unit * if unit < twice ∨ (unit = twice ∧ below % 2 = 1) then below + 1 else below

/-- The number nearest to `n` that has 53 significant bits at most. -/
def nearest (n : Nat) : Nat := nearestMultiple (Nat.pow 2 (n.log2 + 1 - 53)) n

end CallOrder.Double
