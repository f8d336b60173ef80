import CallOrder.Proofs.Result
import CallOrder.Proofs.Room

/-!
What the bounds of a pattern have to be like for it to be built. Main statement: they are checked
where something is built from them, and what is repeated no times at all is not looked at.
-/

namespace CallOrder

namespace Work

variable {α β : Type} {work : Work α} {next : α → Work β} {claim other : Prop}

/-- Work that is done only where the claim holds. -/
def Requires (work : Work α) (claim : Prop) : Prop :=
  ∀ bench value after, work bench = (.ok value, after) → claim

theorem requires_throw (e : Error) (claim : Prop) : (throw e : Work α).Requires claim := by
  intro bench value after done
  rw [throw_apply] at done
  cases done

theorem requires_true (work : Work α) : work.Requires True := fun _ _ _ _ => trivial

namespace Requires

theorem bind_left (first : work.Requires claim) : (work >>= next).Requires claim := by
  intro bench value after done
  obtain ⟨result, middle, made, _⟩ := Work.bind_ok done
  exact first bench result middle made

theorem bind_right (rest : ∀ result, (next result).Requires claim) :
    (work >>= next).Requires claim := by
  intro bench value after done
  obtain ⟨result, middle, _, made⟩ := Work.bind_ok done
  exact rest result middle value after made

theorem and (one : work.Requires claim) (two : work.Requires other) :
    work.Requires (claim ∧ other) :=
  fun bench value after done => ⟨one bench value after done, two bench value after done⟩

theorem imp (given : other → work.Requires claim) : work.Requires (other → claim) :=
  fun bench value after done holds => given holds bench value after done

theorem mono (requires : work.Requires claim) (weaker : claim → other) : work.Requires other :=
  fun bench value after done => weaker (requires bench value after done)

end Requires

end Work

namespace Fragment

open Work

variable {limits : Limits} {work : Work Fragment} {claim : Prop}

theorem requires_checkBound (kind : Quantifier) (bound : Nat) :
    (checkBound limits kind bound).Requires (bound ≤ limits.maxBound) :=
  fun _ _ _ done => (checkBound_ok done).1

theorem requires_nested (inner : work.Requires claim) : (nested limits work).Requires claim := by
  intro bench value after done
  rw [nested] at done
  split at done
  · generalize made : work { bench with depth := bench.depth + 1 } = result at done
    obtain ⟨outcome, later⟩ := result
    cases done
    exact inner _ _ _ made
  · cases done

theorem appendAll_append (first second : List (Work Fragment)) (before : Option Fragment) :
    appendAll (first ++ second) before =
      appendAll first before >>= fun middle => appendAll second middle := by
  induction first generalizing before with
  | nil => rfl
  | cons work first ih =>
      simp only [List.cons_append, appendAll, bind_assoc, ih]

theorem unionAll_append (first second : List (Work Fragment)) (before : Option Fragment) :
    unionAll limits (first ++ second) before =
      unionAll limits first before >>= fun middle => unionAll limits second middle := by
  induction first generalizing before with
  | nil => rfl
  | cons work first ih =>
      cases before with
      | none => simp only [List.cons_append, unionAll, bind_assoc, ih]
      | some before => simp only [List.cons_append, unionAll, bind_assoc, ih]

section Repeated

variable (child : work.Requires claim)

include child

theorem requires_appendTimes {count : Nat} (some : count ≠ 0) (before : Option Fragment) :
    (appendTimes work count before).Requires claim := by
  obtain ⟨count, rfl⟩ := Nat.exists_eq_succ_of_ne_zero some
  exact child.bind_left

theorem requires_exactly (n : Nat) :
    (repeated limits work .exactly (some (.count n))).Requires
      ((n ≠ 0 → claim) ∧ n ≤ limits.maxBound) := by
  apply Requires.and
  · apply Requires.imp
    intro some
    exact Requires.bind_right fun _ => (requires_appendTimes child some none).bind_left
  · exact (requires_checkBound .exactly n).bind_left

theorem requires_atLeast (n : Nat) :
    (repeated limits work .atLeast (some (.count n))).Requires
      (claim ∧ n ≤ limits.maxBound) := by
  apply Requires.and
  · exact Requires.bind_right fun _ => Requires.bind_right fun _ => child.bind_left
  · exact (requires_checkBound .atLeast n).bind_left

theorem requires_between (least most : Nat) :
    (repeated limits work .between (some (.range least most))).Requires
      ((most ≠ 0 → claim) ∧ least ≤ most ∧ most ≤ limits.maxBound) := by
  rw [repeated]
  by_cases reversed : most < least
  · rw [if_pos reversed]
    exact (requires_throw _ _).bind_left
  · rw [if_neg reversed]
    apply Requires.and
    · apply Requires.imp
      intro some
      apply Requires.bind_right
      intro _
      by_cases none : least = 0
      · -- no copy is there for sure, so the first one is an optional one
        have more : most - least ≠ 0 := by omega
        exact Requires.bind_right fun before =>
          (requires_appendTimes child.bind_left more before).bind_left
      · exact (requires_appendTimes child none _).bind_left
    · have ordered : least ≤ most := Nat.not_lt.mp reversed
      exact ((requires_checkBound .between most).mono fun within => ⟨ordered, within⟩).bind_left

theorem requires_repeated (kind : Quantifier) (bound : Option Bound) :
    (repeated limits work kind bound).Requires
      ((Pattern.copies kind bound ≠ 0 → claim) ∧ Pattern.Suits limits kind bound) := by
  match kind, bound with
  | .maybe, none | .option, none =>
      exact child.bind_left.mono fun holds => ⟨fun _ => holds, trivial⟩
  | .exactly, some (.count n) => exact requires_exactly child n
  | .atLeast, some (.count n) =>
      exact (requires_atLeast child n).mono fun holds => ⟨fun _ => holds.1, holds.2⟩
  | .between, some (.range least most) => exact requires_between child least most
  | .maybe, some _ | .option, some _ => exact requires_throw _ _
  | .exactly, none | .atLeast, none | .between, none => exact requires_throw _ _
  | .exactly, some (.range _ _) | .atLeast, some (.range _ _) => exact requires_throw _ _
  | .between, some (.count _) => exact requires_throw _ _

end Repeated

end Fragment

structure Plan.Requires (limits : Limits) (plan : Plan) (claim : Prop) : Prop where
  whole : plan.whole.Requires claim
  inSequence : ∀ before, (Fragment.appendAll plan.inSequence before).Requires claim
  inAlternative : ∀ before, (Fragment.unionAll limits plan.inAlternative before).Requires claim

theorem Plan.requires_single {limits : Limits} {work : Work Fragment} {claim : Prop}
    (requires : work.Requires claim) : (Plan.single work).Requires limits claim where
  whole := requires
  inSequence _ := requires.bind_left
  inAlternative _ := requires.bind_left

namespace Pattern

variable {limits : Limits}

theorem plan_requires (limits : Limits) (p : Pattern) :
    (p.plan limits).Requires limits (p.ConsistentAsBuilt limits) := by
  -- the halves of a chain are not built as wholes, so the hypotheses are about their operands too
  induction p with
  | terminal base token => exact Plan.requires_single (Work.requires_true _)
  | sequence left right ihl ihr =>
      have operands : ∀ before, (Fragment.appendAll ((sequence left right).plan limits).inSequence
          before).Requires ((sequence left right).ConsistentAsBuilt limits) := by
        intro before
        rw [plan, Fragment.appendAll_append]
        exact (ihl.inSequence before).bind_left.and
          (Work.Requires.bind_right fun middle => ihr.inSequence middle)
      have whole : ((sequence left right).plan limits).whole.Requires
          ((sequence left right).ConsistentAsBuilt limits) :=
        Fragment.requires_nested (operands none).bind_left
      exact ⟨whole, operands, fun _ => whole.bind_left⟩
  | alternative left right ihl ihr =>
      have operands : ∀ before, (Fragment.unionAll limits
          ((alternative left right).plan limits).inAlternative before).Requires
            ((alternative left right).ConsistentAsBuilt limits) := by
        intro before
        rw [plan, Fragment.unionAll_append]
        exact (ihl.inAlternative before).bind_left.and
          (Work.Requires.bind_right fun middle => ihr.inAlternative middle)
      have whole : ((alternative left right).plan limits).whole.Requires
          ((alternative left right).ConsistentAsBuilt limits) :=
        Fragment.requires_nested (operands none).bind_left
      exact ⟨whole, fun _ => whole.bind_left, operands⟩
  | quantified child kind bound ih =>
      apply Plan.requires_single
      exact Fragment.requires_nested (Fragment.requires_repeated ih.whole kind bound)

theorem consistentAsBuilt_of_toNfa {p : Pattern} {n : Nfa} (built : p.toNfa limits = .ok n) :
    p.ConsistentAsBuilt limits := by
  rw [toNfa] at built
  split at built
  · exact (p.plan_requires limits).whole _ _ _ ‹_›
  · cases built

theorem toNfa_ok_iff (limits : Limits) (p : Pattern) : (∃ n, p.toNfa limits = .ok n) ↔
    p.ConsistentAsBuilt limits ∧ p.depth ≤ limits.maxDepth ∧ p.size ≤ limits.maxNfaStates := by
  constructor
  · rintro ⟨n, built⟩
    have consistent := consistentAsBuilt_of_toNfa built
    rcases toNfa_cases consistent with
      ⟨_, _, _, shallow, room⟩ | ⟨failed, _⟩ | ⟨failed, _⟩
    · exact ⟨consistent, shallow, room⟩
    · simp [failed] at built
    · simp [failed] at built
  · rintro ⟨consistent, shallow, room⟩
    rcases toNfa_cases consistent with ⟨n, built, _⟩ | ⟨_, deep⟩ | ⟨_, full⟩
    · exact ⟨n, built⟩
    · exact absurd shallow (Nat.not_le.mpr deep)
    · exact absurd room (Nat.not_le.mpr full)

/-- Only what is consistent as far as it is built compiles. That and the room it takes decide on the
nondeterministic automaton. -/
theorem bounds_checked_as_built (limits : Limits) (p : Pattern) :
    (∀ dfa, p.compile limits = .ok dfa → p.ConsistentAsBuilt limits) ∧
    ((∃ n, p.toNfa limits = .ok n) ↔ p.ConsistentAsBuilt limits ∧
      p.depth ≤ limits.maxDepth ∧ p.size ≤ limits.maxNfaStates) := by
  constructor
  · intro dfa compiled
    obtain ⟨n, built, _⟩ := bind_eq_ok compiled
    exact consistentAsBuilt_of_toNfa built
  · exact toNfa_ok_iff limits p

def reversed : Pattern := .quantified (.terminal "x" "a") .between (some (.range 3 1))

/-- It is to be repeated no times at all. -/
def dropped : Pattern := .quantified reversed .exactly (some (.count 0))

theorem exists_compile_dropped : ∃ dfa, dropped.compile .standard = .ok dfa := by
  have compiles : (dropped.compile .standard).toOption.any (0 < ·.size) := by decide +kernel
  obtain ⟨dfa, compiled, _⟩ := exists_eq_ok compiles
  exact ⟨dfa, compiled⟩

theorem not_consistent_reversed : ¬ reversed.Consistent .standard := by
  simp [reversed, Consistent, Suits]

/-- Nothing looks at the bound inside a repetition of none. -/
theorem dropped_compiles :
    (∃ dfa, dropped.compile .standard = .ok dfa) ∧ ¬ dropped.Consistent .standard :=
  ⟨exists_compile_dropped, fun consistent => not_consistent_reversed consistent.1⟩

theorem dropped_as_built : dropped.ConsistentAsBuilt .standard ∧
    ¬ ∃ n, (quantified reversed .atLeast (some (.count 0))).toNfa .standard = .ok n := by
  constructor
  · obtain ⟨dfa, compiled⟩ := exists_compile_dropped
    exact (bounds_checked_as_built .standard dropped).1 dfa compiled
  · rw [(bounds_checked_as_built .standard _).2]
    rintro ⟨consistent, _⟩
    have inside : reversed.ConsistentAsBuilt .standard := consistent.1 (by decide)
    simp [reversed, ConsistentAsBuilt, Suits] at inside

end Pattern

end CallOrder
