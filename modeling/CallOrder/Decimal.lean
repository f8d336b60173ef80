import CallOrder.Double

/-!
Decimal numbers as documents write them: digits, a point and an exponent.
-/

namespace CallOrder

/-- The number `digits * 10 ^ exponent`. -/
structure Decimal where
  digits : Nat
  exponent : Int
  deriving DecidableEq, Repr

namespace Decimal

def run (cs : List Char) : List Char := cs.takeWhile Char.isDigit

def natOf (ds : List Char) : Nat := ds.foldl (fun n d => n * 10 + (d.toNat - '0'.toNat)) 0

/-- Whether a number is too large for a finite floating-point number of double width. Its order of
magnitude settles nearly every case. -/
def exceedsDouble (d : Decimal) : Bool :=
  let magnitude := (Nat.toDigits 10 d.digits).length + d.exponent
  if d.digits = 0 ∨ magnitude < 309 then false
  else if 310 < magnitude then true
  else
    let power := Nat.pow 10 d.exponent.natAbs
    if d.exponent < 0 then Double.bound * power ≤ d.digits else Double.bound ≤ d.digits * power

end Decimal

end CallOrder
