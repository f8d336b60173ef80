import CallOrder.Pattern.Text
import CallOrder.Proofs.Text.Digits

/-!
The suffixes by which a text tells how often a pattern is repeated. Main statement: read backwards,
a suffix ends where it is read, and it tells everything but which of the quantifiers it is that have
it.
-/

namespace CallOrder

/-- A repetition as its suffix shows it. -/
inductive Mark where
  | optional
  | exactly (n : Nat)
  | atLeast (n : Nat)
  | between (min max : Nat)
  | unbounded
  deriving DecidableEq, Repr

namespace Mark

def of : Quantifier → Option Bound → Mark
  | .maybe, _ | .option, _ => optional
  | .atLeast, some (.count n) => atLeast n
  | _, some (.count n) => exactly n
  | _, some (.range min max) => between min max
  | _, none => unbounded

def kind : Mark → Quantifier
  | optional => .maybe
  | exactly _ | unbounded => .exactly
  | atLeast _ => .atLeast
  | between _ _ => .between

def bound : Mark → Option Bound
  | optional | unbounded => none
  | exactly n | atLeast n => some (.count n)
  | between min max => some (.range min max)

def number : Mark → List Char
  | exactly n | atLeast n | between n _ => Nat.toDigits 10 n
  | optional | unbounded => []

def rest : Mark → List Char
  | optional | exactly _ => []
  | atLeast _ => [',']
  | between _ max => ',' :: Nat.toDigits 10 max
  | unbounded => ['?']

def backwards (m : Mark) : List Char :=
  if m = optional then ['?'] else '\x7d' :: (m.number ++ m.rest).reverse ++ ['\x7b']

theorem of_kind_bound (m : Mark) : of m.kind m.bound = m := by cases m <;> rfl

theorem backwards_of (kind : Quantifier) (bound : Option Bound) :
    (kind.suffix bound).toList.reverse = (of kind bound).backwards := by
  cases kind <;> rcases bound with _ | (n | ⟨min, max⟩) <;>
    simp [Quantifier.suffix, of, backwards, number, rest]

theorem suffix_of (kind : Quantifier) (bound : Option Bound) :
    (of kind bound).kind.suffix (of kind bound).bound = kind.suffix bound := by
  apply String.toList_injective
  apply List.reverse_injective
  rw [backwards_of, backwards_of, of_kind_bound]

theorem isDigit_of_mem_number {m : Mark} {c : Char} (member : c ∈ m.number) : c.isDigit = true := by
  cases m <;> simp only [number, List.not_mem_nil] at member <;>
    exact isDigit_of_mem_toDigits member

theorem isDigit_head_rest {m : Mark} {c : Char} (first : c ∈ m.rest.head?) :
    ¬ c.isDigit = true := by
  cases m <;> simp only [rest, List.head?_nil, List.head?_cons, Option.mem_some_iff,
    Option.not_mem_none] at first <;> subst first <;> decide

theorem brace_not_mem_inside (m : Mark) : '\x7b' ∉ (m.number ++ m.rest).reverse := by
  have digits : ∀ n, '\x7b' ∉ Nat.toDigits 10 n := not_mem_toDigits (by decide)
  cases m <;> simp [number, rest, digits]

theorem inside_inj {m m' : Mark} (same : m.number ++ m.rest = m'.number ++ m'.rest) : m = m' := by
  obtain ⟨numbers, rests⟩ := append_inj_of_boundary (fun _ => isDigit_of_mem_number)
    (fun _ => isDigit_of_mem_number) (fun _ => isDigit_head_rest) (fun _ => isDigit_head_rest) same
  cases m <;> cases m' <;>
    simp [number, rest, Nat.toDigits_ne_nil, Nat.toDigits_ne_nil.symm] at numbers rests ⊢
  · exact toDigits_inj numbers
  · exact toDigits_inj numbers
  · exact ⟨toDigits_inj numbers, toDigits_inj rests⟩

/-- The suffix is the first thing to be read, and it ends where it is read. -/
theorem backwards_append_inj {m m' : Mark} {u v : List Char}
    (same : m.backwards ++ u = m'.backwards ++ v) : m = m' ∧ u = v := by
  by_cases optional : m = .optional
  · by_cases optionalToo : m' = .optional
    · subst optional optionalToo
      exact ⟨rfl, List.append_cancel_left same⟩
    · simp [backwards, optional, optionalToo] at same
  · by_cases optionalToo : m' = .optional
    · simp [backwards, optional, optionalToo] at same
    · simp only [backwards, optional, optionalToo, if_false, List.cons_append, List.append_assoc,
        List.cons.injEq, true_and, List.nil_append] at same
      obtain ⟨inside, rest⟩ := append_inj_of_boundary
        (fun c member => ne_of_mem_of_not_mem member (brace_not_mem_inside m))
        (fun c member => ne_of_mem_of_not_mem member (brace_not_mem_inside m'))
        (by simp) (by simp) same
      exact ⟨inside_inj (List.reverse_injective inside), (List.cons.inj rest).2⟩

end Mark

end CallOrder
