import CallOrder.Proofs.Lists

/-! The decimal digits of a number, as texts have them. -/

namespace CallOrder

theorem toDigits_inj {m n : Nat} (same : Nat.toDigits 10 m = Nat.toDigits 10 n) : m = n := by
  rw [← Nat.ofDigitChars_ten_toDigits (n := m), same, Nat.ofDigitChars_ten_toDigits]

theorem isDigit_of_mem_toDigits {c : Char} {n : Nat} (member : c ∈ Nat.toDigits 10 n) :
    c.isDigit = true :=
  Nat.isDigit_of_mem_toDigits (by decide) (by decide) member

theorem not_mem_toDigits {c : Char} (other : c.isDigit = false) (n : Nat) :
    c ∉ Nat.toDigits 10 n := by
  intro member
  rw [isDigit_of_mem_toDigits member] at other
  cases other

theorem toDigits_append_inj {m n : Nat} {c c' : Char} {u v : List Char} (other : c.isDigit = false)
    (otherToo : c'.isDigit = false)
    (same : Nat.toDigits 10 m ++ c :: u = Nat.toDigits 10 n ++ c' :: v) :
    m = n ∧ c :: u = c' :: v := by
  obtain ⟨digits, rest⟩ := append_inj_of_boundary
    (fun _ => isDigit_of_mem_toDigits) (fun _ => isDigit_of_mem_toDigits)
    (by simp [other]) (by simp [otherToo]) same
  exact ⟨toDigits_inj digits, rest⟩

end CallOrder
