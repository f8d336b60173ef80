import CallOrder.Pattern.Basic
import CallOrder.Text.Quoted
import Std.Data.ExtTreeMap

/-!
Operations: what a call must look like, by its target and, if given, by the shape of its arguments.
-/

namespace CallOrder

inductive ArgumentPattern where
  | wildcard
  | value (literal : String)
  | type (name : String)
  | oneOf (literals : List String)
  deriving DecidableEq, Repr

structure Operation where
  target : String
  /-- One condition for each argument; `none` admits any arguments. -/
  signature : Option (List ArgumentPattern)
  deriving DecidableEq, Repr

abbrev OperationTable := Std.ExtTreeMap Token Operation

namespace ArgumentPattern

def rank : ArgumentPattern → Nat
  | wildcard => 0
  | value _ => 1
  | type _ => 2
  | oneOf _ => 3

def content : ArgumentPattern → List String
  | wildcard => []
  | value literal => [literal]
  | type name => [name]
  | oneOf literals => literals

/-- By kind first, then by what the condition holds. -/
instance : Ord ArgumentPattern := ⟨compareLex (compareOn rank) (compareOn content)⟩

instance : Std.TransOrd ArgumentPattern :=
  inferInstanceAs (Std.TransCmp (compareLex (compareOn rank) (compareOn content)))

theorem eq_of_rank_of_content {p q : ArgumentPattern} (hr : p.rank = q.rank)
    (hc : p.content = q.content) : p = q := by
  cases p <;> cases q <;> simp_all [rank, content]

instance : Std.LawfulEqOrd ArgumentPattern where
  eq_of_compare {p q} h := by
    have h : (compareOn rank p q).then (compareOn content p q) = .eq := h
    rw [Ordering.then_eq_eq] at h
    exact eq_of_rank_of_content (Std.LawfulEqOrd.eq_of_compare h.1)
      (Std.LawfulEqOrd.eq_of_compare h.2)

def text : ArgumentPattern → String
  | wildcard => "_"
  | value literal => Text.quoted literal
  | type name => name
  | oneOf literals => "\x7b" ++ ", ".intercalate literals ++ "\x7d"

end ArgumentPattern

namespace Operation

def any (target : String) : Operation := ⟨target, none⟩

/-- By target first, then by signature, where no signature comes before any other. -/
instance : Ord Operation := ⟨compareLex (compareOn target) (compareOn signature)⟩

instance : Std.TransOrd Operation :=
  inferInstanceAs (Std.TransCmp (compareLex (compareOn target) (compareOn signature)))

instance : Std.LawfulEqOrd Operation where
  eq_of_compare {p q} h := by
    have h : (compareOn target p q).then (compareOn signature p q) = .eq := h
    rw [Ordering.then_eq_eq] at h
    have ht : p.target = q.target := Std.LawfulEqOrd.eq_of_compare h.1
    have hs : p.signature = q.signature := Std.LawfulEqOrd.eq_of_compare h.2
    cases p
    cases q
    simp_all

def text (op : Operation) : String :=
  op.target ++ "(" ++ (match op.signature with
    | none => ".."
    | some conditions => ", ".intercalate (conditions.map ArgumentPattern.text)) ++ ")"

end Operation

end CallOrder
