import CallOrder.Proofs.Script
import Mathlib.Data.List.Forall2

/-!
What closing a script comes to. Main statement: it gives the pattern that the steps stand for if
every block has a step and every bound is there that is required, and otherwise reports the first
fault in the order in which blocks are closed.
-/

namespace CallOrder

theorem error?_bind {ε α β : Type} {first : Except ε α} {next : α → Except ε β} {later : Option ε}
    (rest : ∀ value, first = .ok value → error? (next value) = later) :
    error? (first >>= next) = (error? first).or later := by
  cases first with
  | error e => rfl
  | ok value => exact rest value rfl

theorem error?_bind_pure {ε α β : Type} (first : Except ε α) (f : α → β) :
    error? (do return f (← first)) = error? first := by
  cases first <;> rfl

def Grouping.combine : Grouping → Pattern → Pattern → Pattern
  | group => .sequence
  | set => .alternative

theorem Grouping.fold_cons (grouping : Grouping) (first : Pattern) (rest : List Pattern) :
    grouping.fold (first :: rest) = .ok (rest.foldl grouping.combine first) := by
  cases grouping <;> rfl

theorem Grouping.fold_nil (grouping : Grouping) : grouping.fold [] = .error .emptyGroup := by
  cases grouping <;> rfl

theorem Grouping.fold_eq_ok {grouping : Grouping} {members : List Pattern} {p : Pattern}
    (folded : grouping.fold members = .ok p) :
    ∃ first rest, members = first :: rest ∧ p = rest.foldl grouping.combine first := by
  cases members with
  | nil =>
      rw [fold_nil] at folded
      cases folded
  | cons first rest =>
      rw [fold_cons] at folded
      exact ⟨first, rest, rfl, (Except.ok.inj folded).symm⟩

theorem Pattern.quantify_eq_ok_iff {child p : Pattern} {kind : Quantifier} {bound : Option Bound} :
    child.quantify kind bound = .ok p ↔
      (kind.requiresBound = true → bound ≠ none) ∧ p = .quantified child kind bound := by
  rw [quantify]
  split
  case isTrue missing =>
    obtain ⟨requires, absent⟩ := Bool.and_eq_true_iff.mp missing
    refine iff_of_false (fun failed => by cases failed) fun given => ?_
    exact given.1 requires (Option.isNone_iff_eq_none.mp absent)
  case isFalse given =>
    rw [Bool.and_eq_true_iff, Option.isNone_iff_eq_none, not_and] at given
    rw [and_iff_right given, Except.ok.injEq]
    exact eq_comm

/-- The pattern that a step of a script on `base` stands for. -/
inductive Step.Writes (base : Base) : Step → Pattern → Prop
  | token (name : Token) : Writes base (.token name) (.terminal base name)
  | terminal (own : Base) (name : Token) : Writes base (.terminal own name) (.terminal own name)
  | bind (name : Token) (operation : Operation) :
      Writes base (.bind name operation) (.terminal base name)
  | pattern (p : Pattern) : Writes base (.pattern p) p
  | block {steps : List Step} {first : Pattern} {rest : List Pattern} (grouping : Grouping)
      (members : List.Forall₂ (Writes base) steps (first :: rest)) :
      Writes base (.block grouping steps) (rest.foldl grouping.combine first)
  | alternative {left right : List Step} {l r : Pattern} {ls rs : List Pattern}
      (lefts : List.Forall₂ (Writes base) left (l :: ls))
      (rights : List.Forall₂ (Writes base) right (r :: rs)) :
      Writes base (.alternative left right)
        (.alternative (ls.foldl .sequence l) (rs.foldl .sequence r))
  | quantified {steps : List Step} {first : Pattern} {rest : List Pattern} {kind : Quantifier}
      {bound : Option Bound} (members : List.Forall₂ (Writes base) steps (first :: rest))
      (bounded : kind.requiresBound = true → bound ≠ none) :
      Writes base (.quantified kind bound steps)
        (.quantified (rest.foldl .sequence first) kind bound)

mutual

def Step.deep : Step → List Step
  | .token name => [.token name]
  | .terminal own name => [.terminal own name]
  | .bind name operation => [.bind name operation]
  | .pattern p => [.pattern p]
  | .block grouping steps => .block grouping steps :: Step.allDeep steps
  | .alternative left right => .alternative left right :: (Step.allDeep left ++ Step.allDeep right)
  | .quantified kind bound steps => .quantified kind bound steps :: Step.allDeep steps

def Step.allDeep : List Step → List Step
  | [] => []
  | step :: steps => step.deep ++ Step.allDeep steps

end

/-- The blocks of a step have steps of their own, and it has the bound that it requires. -/
def Step.Complete : Step → Prop
  | .token _ | .terminal _ _ | .bind _ _ | .pattern _ => True
  | .block _ steps => steps ≠ []
  | .alternative left right => left ≠ [] ∧ right ≠ []
  | .quantified kind bound steps => steps ≠ [] ∧ (kind.requiresBound = true → bound ≠ none)

namespace ConstructionError

def ofClosing (steps : List Step) : List ConstructionError :=
  if steps.isEmpty then [.emptyGroup] else []

def ofQuantifying (kind : Quantifier) (bound : Option Bound) : List ConstructionError :=
  if kind.requiresBound && bound.isNone then [.missingBound kind] else []

theorem ofClosing_eq_nil_iff (steps : List Step) : ofClosing steps = [] ↔ steps ≠ [] := by
  cases steps <;> simp [ofClosing]

theorem ofQuantifying_eq_nil_iff (kind : Quantifier) (bound : Option Bound) :
    ofQuantifying kind bound = [] ↔ (kind.requiresBound = true → bound ≠ none) := by
  cases bound <;> simp [ofQuantifying]

end ConstructionError

open ConstructionError (ofClosing ofQuantifying)

mutual

/-- All faults of a step, in the order in which its blocks are closed and quantifiers applied. -/
def Step.faults : Step → List ConstructionError
  | .token _ | .terminal _ _ | .bind _ _ | .pattern _ => []
  | .block _ steps => Step.allFaults steps ++ ofClosing steps
  | .alternative left right =>
    (Step.allFaults left ++ ofClosing left) ++ (Step.allFaults right ++ ofClosing right)
  | .quantified kind bound steps =>
    (Step.allFaults steps ++ ofClosing steps) ++ ofQuantifying kind bound

def Step.allFaults : List Step → List ConstructionError
  | [] => []
  | step :: steps => step.faults ++ Step.allFaults steps

end

namespace Step

variable (base : Base)

mutual

theorem writes_iff : (step : Step) → (p : Pattern) →
    (step.Writes base p ↔ step.written base = .ok p)
  | .token name, p => by
      rw [written]
      constructor
      · rintro ⟨⟩
        rfl
      · rintro ⟨⟩
        exact .token name
  | .terminal own name, p => by
      rw [written]
      constructor
      · rintro ⟨⟩
        rfl
      · rintro ⟨⟩
        exact .terminal own name
  | .bind name operation, p => by
      rw [written]
      constructor
      · rintro ⟨⟩
        rfl
      · rintro ⟨⟩
        exact .bind name operation
  | .pattern q, p => by
      rw [written]
      constructor
      · rintro ⟨⟩
        rfl
      · rintro ⟨⟩
        exact .pattern q
  | .block grouping steps, p => by
      rw [written]
      constructor
      · intro writes
        cases writes with
        | block _ members =>
            rw [(forall₂_writes_iff steps _).mp members, ok_bind, grouping.fold_cons]
      · intro done
        obtain ⟨members, all, folded⟩ := bind_eq_ok done
        obtain ⟨first, rest, rfl, rfl⟩ := Grouping.fold_eq_ok folded
        exact .block grouping ((forall₂_writes_iff steps _).mpr all)
  | .alternative left right, p => by
      rw [written]
      constructor
      · intro writes
        cases writes with
        | alternative lefts rights =>
            rw [(forall₂_writes_iff left _).mp lefts, (forall₂_writes_iff right _).mp rights]
            rfl
      · intro done
        obtain ⟨lefts, allLeft, done⟩ := bind_eq_ok done
        obtain ⟨l, foldedLeft, done⟩ := bind_eq_ok done
        obtain ⟨rights, allRight, done⟩ := bind_eq_ok done
        obtain ⟨r, foldedRight, done⟩ := bind_eq_ok done
        obtain ⟨_, _, rfl, rfl⟩ := Grouping.fold_eq_ok foldedLeft
        obtain ⟨_, _, rfl, rfl⟩ := Grouping.fold_eq_ok foldedRight
        cases done
        exact .alternative ((forall₂_writes_iff left _).mpr allLeft)
          ((forall₂_writes_iff right _).mpr allRight)
  | .quantified kind bound steps, p => by
      rw [written]
      constructor
      · intro writes
        cases writes with
        | quantified members bounded =>
            rw [(forall₂_writes_iff steps _).mp members, ok_bind, Grouping.fold_cons, ok_bind]
            exact Pattern.quantify_eq_ok_iff.mpr ⟨bounded, rfl⟩
      · intro done
        obtain ⟨members, all, done⟩ := bind_eq_ok done
        obtain ⟨child, folded, quantified⟩ := bind_eq_ok done
        obtain ⟨first, rest, rfl, rfl⟩ := Grouping.fold_eq_ok folded
        obtain ⟨bounded, rfl⟩ := Pattern.quantify_eq_ok_iff.mp quantified
        exact .quantified ((forall₂_writes_iff steps _).mpr all) bounded

theorem forall₂_writes_iff : (steps : List Step) → (members : List Pattern) →
    (List.Forall₂ (Writes base) steps members ↔ allWritten base steps = .ok members)
  | [], members => by
      rw [allWritten, List.forall₂_nil_left_iff]
      constructor
      · rintro rfl
        rfl
      · rintro ⟨⟩
        rfl
  | step :: steps, members => by
      rw [allWritten]
      constructor
      · rintro ⟨⟩
        rename_i first rest writes others
        rw [(writes_iff step first).mp writes, (forall₂_writes_iff steps rest).mp others]
        rfl
      · intro done
        obtain ⟨first, one, done⟩ := bind_eq_ok done
        obtain ⟨rest, others, done⟩ := bind_eq_ok done
        cases done
        exact .cons ((writes_iff step first).mpr one) ((forall₂_writes_iff steps rest).mpr others)

end

theorem error?_fold {steps : List Step} {faults : List ConstructionError}
    (known : error? (allWritten base steps) = faults.head?) (grouping : Grouping) :
    error? (allWritten base steps >>= grouping.fold) = (faults ++ ofClosing steps).head? := by
  rw [List.head?_append, ← known]
  apply error?_bind
  intro members all
  -- a block has as many members as steps
  have same := ((forall₂_writes_iff base steps members).mpr all).length_eq
  cases steps with
  | nil =>
      rw [List.length_eq_zero_iff.mp same.symm, grouping.fold_nil]
      rfl
  | cons step steps =>
      obtain ⟨first, rest, rfl⟩ := List.exists_cons_of_length_eq_add_one same.symm
      rw [grouping.fold_cons]
      rfl

theorem error?_quantify (child : Pattern) (kind : Quantifier) (bound : Option Bound) :
    error? (child.quantify kind bound) = (ofQuantifying kind bound).head? := by
  rw [Pattern.quantify, ofQuantifying]
  split <;> rfl

mutual

theorem error?_written : (step : Step) → error? (step.written base) = step.faults.head?
  | .token name => by
      rw [written, faults]
      rfl
  | .terminal own name => by
      rw [written, faults]
      rfl
  | .bind name operation => by
      rw [written, faults]
      rfl
  | .pattern p => by
      rw [written, faults]
      rfl
  | .block grouping steps => by
      rw [written, faults]
      exact error?_fold base (error?_allWritten steps) grouping
  | .alternative left right => by
      have lefts := error?_fold base (error?_allWritten left) .group
      have rights := error?_fold base (error?_allWritten right) .group
      rw [written, faults, List.head?_append, ← lefts, ← rights, ← bind_assoc]
      refine error?_bind fun l _ => ?_
      rw [← bind_assoc]
      exact error?_bind_pure _ _
  | .quantified kind bound steps => by
      have inside := error?_fold base (error?_allWritten steps) .group
      rw [written, faults, List.head?_append, ← inside, ← bind_assoc]
      exact error?_bind fun child _ => error?_quantify child kind bound

theorem error?_allWritten : (steps : List Step) →
    error? (allWritten base steps) = (allFaults steps).head?
  | [] => by
      rw [allWritten, allFaults]
      rfl
  | step :: steps => by
      rw [allWritten, allFaults, List.head?_append, ← error?_written step,
        ← error?_allWritten steps]
      exact error?_bind fun first _ => error?_bind_pure _ _

end

mutual

theorem faults_eq_nil_iff : (step : Step) →
    (step.faults = [] ↔ ∀ part ∈ step.deep, part.Complete)
  | .token name => by simp [faults, deep, Complete]
  | .terminal own name => by simp [faults, deep, Complete]
  | .bind name operation => by simp [faults, deep, Complete]
  | .pattern p => by simp [faults, deep, Complete]
  | .block grouping steps => by
      rw [faults, deep, List.append_eq_nil_iff, allFaults_eq_nil_iff steps,
        ConstructionError.ofClosing_eq_nil_iff, List.forall_mem_cons, and_comm]
      rfl
  | .alternative left right => by
      simp only [faults, deep, List.append_eq_nil_iff, allFaults_eq_nil_iff left,
        allFaults_eq_nil_iff right, ConstructionError.ofClosing_eq_nil_iff, List.forall_mem_cons,
        List.forall_mem_append, Complete]
      tauto
  | .quantified kind bound steps => by
      simp only [faults, deep, List.append_eq_nil_iff, allFaults_eq_nil_iff steps,
        ConstructionError.ofClosing_eq_nil_iff, ConstructionError.ofQuantifying_eq_nil_iff,
        List.forall_mem_cons, Complete]
      tauto

theorem allFaults_eq_nil_iff : (steps : List Step) →
    (allFaults steps = [] ↔ ∀ part ∈ allDeep steps, part.Complete)
  | [] => by simp [allFaults, allDeep]
  | step :: steps => by
      rw [allFaults, allDeep, List.append_eq_nil_iff, faults_eq_nil_iff step,
        allFaults_eq_nil_iff steps, List.forall_mem_append]

end

end Step

namespace Script

def asStep (s : Script) : Step := .block s.grouping s.steps

theorem close_eq_written (s : Script) : s.close = s.asStep.written s.base := by
  rw [close_eq, asStep, Step.written]

/-- A script closes exactly if it and all blocks in it have steps and all bounds are there that are
required. It closes to the one pattern that it stands for, and otherwise reports its first fault. -/
theorem close_exact (s : Script) :
    ((∃ p, s.close = .ok p) ↔ s.steps ≠ [] ∧ ∀ step ∈ Step.allDeep s.steps, step.Complete) ∧
    (∀ p, s.close = .ok p ↔ s.asStep.Writes s.base p) ∧
    (∀ e, s.close = .error e ↔ s.asStep.faults.head? = some e) := by
  have failed : error? s.close = s.asStep.faults.head? := by
    rw [close_eq_written, Step.error?_written]
  refine ⟨?_, ?_, ?_⟩
  · have sound : s.asStep.faults = [] ↔
        s.steps ≠ [] ∧ ∀ step ∈ Step.allDeep s.steps, step.Complete := by
      rw [Step.faults_eq_nil_iff, asStep, Step.deep, List.forall_mem_cons]
      rfl
    rw [← sound, ← List.head?_eq_none_iff, ← failed]
    cases s.close <;> simp [error?]
  · intro p
    rw [close_eq_written, Step.writes_iff]
  · intro e
    rw [← failed]
    cases s.close <;> simp [error?]

end Script

end CallOrder
