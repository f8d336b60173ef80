import CallOrder.Pattern.Basic
import Mathlib.Computability.Language
import Mathlib.Order.CompletePartialOrder

/-! The words of a pattern: the sequences of tokens that it allows. -/

namespace CallOrder.Pattern

/-- What a repetition of `child` allows; nothing where the bound does not suit the quantifier. -/
def repeatedWords (child : Language Token) : Quantifier → Option Bound → Language Token
  | .maybe, none | .option, none => child + 1
  | .exactly, some (.count n) => child ^ n
  | .atLeast, some (.count n) => {word | ∃ k, n ≤ k ∧ word ∈ child ^ k}
  | .between, some (.range min max) => {word | ∃ k, min ≤ k ∧ k ≤ max ∧ word ∈ child ^ k}
  | _, _ => 0

/-- The words of a pattern; bases play no part in them. -/
def words : Pattern → Language Token
  | terminal _ token => {[token]}
  | sequence left right => left.words * right.words
  | alternative left right => left.words + right.words
  | quantified child kind bound => repeatedWords child.words kind bound

def Begins (p : Pattern) (front : List Token) : Prop := ∃ rest, front ++ rest ∈ p.words

theorem mem_add_one_pow (words : Language Token) (m : Nat) (word : List Token) :
    word ∈ (words + 1) ^ m ↔ ∃ k ≤ m, word ∈ words ^ k := by
  induction m generalizing word with
  | zero => simp
  | succ m ih =>
      rw [pow_succ, Language.mem_mul]
      constructor
      · intro given
        rcases given with ⟨front, inFront, back, inBack, rfl⟩
        obtain ⟨k, bound, member⟩ := (ih front).mp inFront
        rcases inBack with more | nothing
        · refine ⟨k + 1, by omega, ?_⟩
          rw [pow_succ]
          exact Language.append_mem_mul member more
        · rw [(Language.mem_one back).mp nothing, List.append_nil]
          exact ⟨k, by omega, member⟩
      · intro given
        rcases given with ⟨k, bound, member⟩
        rcases Nat.lt_or_ge m k with above | below
        · obtain rfl : k = m + 1 := by omega
          rw [pow_succ, Language.mem_mul] at member
          obtain ⟨front, inFront, back, inBack, rfl⟩ := member
          exact ⟨front, (ih front).mpr ⟨m, le_refl m, inFront⟩, back, Or.inl inBack, rfl⟩
        · exact ⟨word, (ih word).mpr ⟨k, below, member⟩, [], Or.inr rfl, List.append_nil word⟩

theorem pow_mul_add_one_pow (words : Language Token) (min max : Nat) (ordered : min ≤ max) :
    words ^ min * (words + 1) ^ (max - min) =
      repeatedWords words .between (some (.range min max)) := by
  ext word
  rw [Language.mem_mul]
  constructor
  · intro given
    rcases given with ⟨front, inFront, back, inBack, rfl⟩
    obtain ⟨k, bound, member⟩ := (mem_add_one_pow words (max - min) back).mp inBack
    refine ⟨min + k, by omega, by omega, ?_⟩
    rw [pow_add]
    exact Language.append_mem_mul inFront member
  · intro given
    rcases given with ⟨k, above, below, member⟩
    rw [show k = min + (k - min) by omega, pow_add, Language.mem_mul] at member
    obtain ⟨front, inFront, back, inBack, rfl⟩ := member
    have fewer := (mem_add_one_pow words (max - min) back).mpr ⟨k - min, by omega, inBack⟩
    exact ⟨front, inFront, back, fewer, rfl⟩

open Computability in
theorem pow_mul_kstar (words : Language Token) (n : Nat) :
    words ^ n * words∗ = repeatedWords words .atLeast (some (.count n)) := by
  ext word
  rw [Language.mem_mul, Language.kstar_eq_iSup_pow]
  constructor
  · intro given
    rcases given with ⟨front, inFront, back, inBack, rfl⟩
    obtain ⟨k, member⟩ := Language.mem_iSup.mp inBack
    refine ⟨n + k, by omega, ?_⟩
    rw [pow_add]
    exact Language.append_mem_mul inFront member
  · intro given
    rcases given with ⟨k, above, member⟩
    rw [show k = n + (k - n) by omega, pow_add, Language.mem_mul] at member
    obtain ⟨front, inFront, back, inBack, rfl⟩ := member
    exact ⟨front, inFront, back, Language.mem_iSup.mpr ⟨k - n, inBack⟩, rfl⟩

theorem words_foldl_sequence (first : Pattern) (rest : List Pattern) :
    (rest.foldl sequence first).words = first.words * (rest.map words).prod := by
  induction rest generalizing first with
  | nil => simp
  | cons second rest ih => simp [ih, words, mul_assoc]

theorem words_foldl_alternative (first : Pattern) (rest : List Pattern) :
    (rest.foldl alternative first).words = first.words + (rest.map words).sum := by
  induction rest generalizing first with
  | nil => simp
  | cons second rest ih => simp [ih, words, add_assoc]

variable {members : List Pattern}

theorem group_ok (given : members ≠ []) :
    ∃ p, group members = .ok p ∧ p.words = (members.map words).prod := by
  cases members with
  | nil => exact absurd rfl given
  | cons first rest =>
      refine ⟨rest.foldl sequence first, rfl, ?_⟩
      rw [words_foldl_sequence, List.map_cons, List.prod_cons]

theorem set_ok (given : members ≠ []) :
    ∃ p, set members = .ok p ∧ p.words = (members.map words).sum := by
  cases members with
  | nil => exact absurd rfl given
  | cons first rest =>
      refine ⟨rest.foldl alternative first, rfl, ?_⟩
      rw [words_foldl_alternative, List.map_cons, List.sum_cons]

end CallOrder.Pattern
