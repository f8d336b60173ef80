import CallOrder.Decimal

/-!
How large a JSON number is taken to be. Digits count only as long as they make a number of 64 bits,
and that number and its power of ten are rounded to double width before they are multiplied.
-/

namespace CallOrder.Json

/-- Appends digits to `n` as long as the number fits 64 bits. Gives the number and how many digits
there are in it beside `taken`. -/
def appendDigits (n taken : Nat) : List Char → Nat × Nat
  | [] => (n, taken)
  | d :: ds =>
    let next := n * 10 + (d.toNat - '0'.toNat)
    if next < UInt64.size then appendDigits next (taken + 1) ds else (n, taken)

/-- The number that digits before and behind the point make. Those before it that do not count still
make it ten times as large. -/
def significant (whole fraction : List Char) (exponent : Int) : Decimal :=
  let (n, taken) := appendDigits 0 0 whole
  let (n, behind) := appendDigits n 0 fraction
  ⟨n, exponent + (whole.length - taken : Nat) - behind⟩

def overflows (d : Decimal) : Bool :=
  if d.digits = 0 ∨ d.exponent < 0 then false
  else if 308 < d.exponent then true
  else Double.bound ≤ Double.nearest d.digits * Double.nearest (Nat.pow 10 d.exponent.toNat)

end CallOrder.Json
