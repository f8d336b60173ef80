import CallOrder.Operation
import CallOrder.Span

/-!
Occurrences: the located calls found in a program, and whether one fits an operation.
-/

namespace CallOrder

/-- The number of an occurrence within its arena. -/
abbrev OccurrenceId := Nat

structure Argument where
  value : Option String
  typeName : Option String
  deriving DecidableEq, Repr

structure Occurrence where
  target : String
  code : String
  filePath : String
  span : Span
  base : Option Base
  /-- Where the call stands among the calls on the same base. -/
  position : Nat
  arguments : List Argument
  deriving DecidableEq, Repr

def OccurrenceId.text (id : OccurrenceId) : String := "occ#" ++ toString id

namespace ArgumentPattern

/-- What is not known of an argument fits no condition on it. -/
def fits (condition : ArgumentPattern) (argument : Argument) : Bool :=
  match condition with
  | wildcard => true
  | value literal => argument.value == some literal
  | type name => argument.typeName == some name
  | oneOf literals => argument.value.any literals.contains

end ArgumentPattern

def fitAll : List ArgumentPattern → List Argument → Bool
  | [], [] => true
  | condition :: conditions, argument :: arguments =>
    condition.fits argument && fitAll conditions arguments
  | _, _ => false

namespace Occurrence

def fits (occurrence : Occurrence) (op : Operation) : Bool :=
  op.target == occurrence.target && match op.signature with
    | none => true
    | some conditions => fitAll conditions occurrence.arguments

def location (occurrence : Occurrence) : String :=
  if occurrence.filePath.isEmpty then occurrence.span.text
  else occurrence.filePath ++ ":" ++ occurrence.span.text

end Occurrence

end CallOrder
