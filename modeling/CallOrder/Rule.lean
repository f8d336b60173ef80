/-!
What is common to all kinds of rule: a name, a severity, and messages of its own.
-/

namespace CallOrder

inductive Severity where
  | info
  | warning
  | error
  deriving DecidableEq, Repr

def Severity.rank : Severity → Nat
  | info => 0
  | warning => 1
  | error => 2

instance : Ord Severity := ⟨compareOn Severity.rank⟩

def Severity.max (a b : Severity) : Severity := if a.rank ≤ b.rank then b else a

structure Rule where
  name : String
  failMessage : Option String
  passMessage : Option String
  severity : Severity
  deriving DecidableEq, Repr

namespace Rule

def unnamed : Rule := ⟨"", none, none, .warning⟩

/-- The rule's own message, or `standard` where it has none or an empty one. -/
def choose (own : Option String) (standard : String) : String :=
  match own with
  | some message => if message.isEmpty then standard else message
  | none => standard

def failText (rule : Rule) (standard : String) : String := choose rule.failMessage standard

def passText (rule : Rule) (standard : String) : String := choose rule.passMessage standard

end Rule

end CallOrder
