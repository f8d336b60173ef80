import CallOrder.Proofs.Text.Digits
import CallOrder.Yaml.Plain
import Mathlib.Tactic.IntervalCases

/-! A whole number is read back from its decimal digits. -/

namespace CallOrder.Yaml

theorem digit?_digitChar {d : Nat} (small : d < 10) : digit? 10 d.digitChar = some d := by
  interval_cases d <;> rfl

theorem mapM_digit?_toDigits (n : Nat) : ∃ ds, (Nat.toDigits 10 n).mapM (digit? 10) = some ds ∧
    ds ≠ [] ∧ ds.foldl (fun value d => value * 10 + d) 0 = n := by
  induction n using Nat.strongRecOn with
  | ind n ih =>
      by_cases small : n < 10
      · refine ⟨[n], ?_, List.cons_ne_nil _ _, by simp⟩
        simp [Nat.toDigits_of_lt_base small, digit?_digitChar small]
      · obtain ⟨ds, read, _, total⟩ := ih (n / 10) (by omega)
        have last := digit?_digitChar (Nat.mod_lt n (show 10 > 0 by decide))
        refine ⟨ds ++ [n % 10], ?_, by simp, ?_⟩
        · simp [Nat.toDigits_of_base_le (by decide) (Nat.le_of_not_lt small), read, last]
        · rw [List.foldl_append, total]
          exact Nat.div_add_mod' n 10

theorem digits?_toDigits (n : Nat) : digits? 10 (Nat.toDigits 10 n) = some n := by
  obtain ⟨ds, read, present, total⟩ := mapM_digit?_toDigits n
  simp [digits?, read, present, total]

theorem eq_zero_of_head?_toDigits {n : Nat} (first : (Nat.toDigits 10 n).head? = some '0') :
    n = 0 := by
  induction n using Nat.strongRecOn with
  | ind n ih =>
      by_cases small : n < 10
      · simpa [Nat.toDigits_of_lt_base small] using first
      · rw [Nat.toDigits_of_base_le (by decide) (Nat.le_of_not_lt small),
          List.head?_append_of_ne_nil _ Nat.toDigits_ne_nil] at first
        have := ih (n / 10) (by omega) first
        omega

theorem toDigits_ne_zero_cons (n : Nat) (c : Char) (rest : List Char) :
    Nat.toDigits 10 n ≠ '0' :: c :: rest := by
  intro spelt
  have first : (Nat.toDigits 10 n).head? = some '0' := by rw [spelt]; rfl
  obtain rfl := eq_zero_of_head?_toDigits first
  cases spelt

theorem hasLeadingZero_toDigits (n : Nat) : hasLeadingZero (Nat.toDigits 10 n) = false := by
  unfold hasLeadingZero
  split
  case h_1 c rest spelt => exact absurd spelt (toDigits_ne_zero_cons n c rest)
  case h_2 => rfl

theorem magnitude?_toDigits (n : Nat) : magnitude? (Nat.toDigits 10 n) = some n := by
  unfold magnitude?
  split
  case h_1 spelt | h_2 spelt | h_3 spelt => exact absurd spelt (toDigits_ne_zero_cons n _ _)
  case h_4 => simp [hasLeadingZero_toDigits, digits?_toDigits]

theorem natural?_toString (n : Nat) : natural? (toString n) = some n := by
  have spelt : (toString n).toList = Nat.toDigits 10 n := Nat.toList_repr
  unfold natural?
  split
  case h_1 signed =>
    have sign : '+' ∈ Nat.toDigits 10 n := by
      rw [← spelt, signed]
      exact List.mem_cons_self
    exact absurd sign (not_mem_toDigits (by decide) n)
  case h_2 => rw [spelt, magnitude?_toDigits]

end CallOrder.Yaml
