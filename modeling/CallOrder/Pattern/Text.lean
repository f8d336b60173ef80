import CallOrder.Pattern.Basic

/-!
The regex-like text of a pattern: a space for sequence, `(l|r)` for alternatives, and a suffix for
repetition, with parentheses round a repeated sequence.
-/

namespace CallOrder

def Quantifier.name : Quantifier → String
  | exactly => "exactly"
  | between => "between"
  | atLeast => "atLeast"
  | maybe => "maybe"
  | option => "option"

def Quantifier.suffix : Quantifier → Option Bound → String
  | maybe, _ | option, _ => "?"
  | atLeast, some (.count n) => "\x7b" ++ toString n ++ ",\x7d"
  | _, some (.count n) => "\x7b" ++ toString n ++ "\x7d"
  | _, some (.range min max) => "\x7b" ++ toString min ++ "," ++ toString max ++ "\x7d"
  | _, none => "\x7b?\x7d"

namespace Pattern

def isAtomic : Pattern → Bool
  | sequence _ _ => false
  | _ => true

/-- The text of `p` put behind `before`. -/
def textAfter (before : String) : (p : Pattern) → String
  | terminal _ token => before ++ token
  | sequence left right => right.textAfter (left.textAfter before ++ " ")
  | alternative left right => right.textAfter (left.textAfter (before ++ "(") ++ "|") ++ ")"
  | quantified child kind bound =>
    let inner := if child.isAtomic then child.textAfter before
      else child.textAfter (before ++ "(") ++ ")"
    inner ++ kind.suffix bound

def text (p : Pattern) : String := p.textAfter ""

theorem textAfter_eq (p : Pattern) (before : String) : p.textAfter before = before ++ p.text := by
  induction p generalizing before with
  | terminal base token => simp [text, textAfter]
  | sequence left right ihl ihr =>
    simp only [text, textAfter]
    rw [ihl, ihr, ihl "", ihr (("" ++ left.text) ++ " ")]
    simp [String.append_assoc]
  | alternative left right ihl ihr =>
    simp only [text, textAfter]
    rw [ihl, ihr, ihl ("" ++ "("), ihr ((("" ++ "(") ++ left.text) ++ "|")]
    simp [String.append_assoc]
  | quantified child kind bound ih =>
    simp only [text, textAfter]
    split
    · rw [ih, ih ""]
      simp [String.append_assoc]
    · rw [ih, ih ("" ++ "(")]
      simp [String.append_assoc]

end Pattern

end CallOrder
