import CallOrder.Automaton.Thompson
import CallOrder.Proofs.Automaton.Thompson

/-! Building under two limits side by side. A relation between pieces of work that the elementary
steps respect is respected by all that is put together from them, up to whole patterns. -/

namespace CallOrder

theorem Work.throw_bind {α β : Type} (e : Error) (next : α → Work β) :
    (throw e >>= next) = throw e := by
  funext bench
  rw [bind_apply, throw_apply, throw_apply]

/-- That a bound does not suit its quantifier, whatever the limits. -/
def SpecificationError.OfBound : SpecificationError → Prop
  | unexpectedBound _ | reversedRange _ _ | unsuitableBound _ _ => True
  | tooDeep _ | boundTooLarge _ _ _ | unboundToken _ | unboundSelector _ => False

abbrev Work.Relation := ∀ α : Type, Work α → Work α → Prop

/-- The elementary steps under the two limits are related, and work is as soon as its parts are. -/
structure Work.Relation.Respected (related : Work.Relation) (first second : Limits) : Prop where
  done : ∀ {α : Type} (value : α), related α (pure value) (pure value)
  bind : ∀ {α β : Type} {work work' : Work α} {next next' : α → Work β}, related α work work' →
    (∀ value, related β (next value) (next' value)) → related β (work >>= next) (work' >>= next')
  construction : ∀ {α : Type} (cause : ConstructionError),
    related α (throw (.construction cause)) (throw (.construction cause))
  specification : ∀ {α : Type} (cause : SpecificationError), cause.OfBound →
    related α (throw (.specification cause)) (throw (.specification cause))
  newState : related Nat (Fragment.newState first) (Fragment.newState second)
  connect : ∀ (source : Nat) (label : Option Token) (target : Nat),
    related Unit (Fragment.connect source label target) (Fragment.connect source label target)
  checkBound : ∀ (kind : Quantifier) (bound : Nat),
    related Unit (Fragment.checkBound first kind bound) (Fragment.checkBound second kind bound)
  nested : ∀ {work work' : Work Fragment}, related Fragment work work' →
    related Fragment (Fragment.nested first work) (Fragment.nested second work')

namespace Work.Relation.Respected

variable {related : Work.Relation} {first second : Limits} {work work' : Work Fragment}
  {works works' : List (Work Fragment)} (respected : related.Respected first second)

include respected

theorem ends : related Fragment (Fragment.ends first) (Fragment.ends second) := by
  apply respected.bind respected.newState
  intro start
  apply respected.bind respected.newState
  intro accept
  exact respected.done _

theorem single (label : Option Token) :
    related Fragment (Fragment.single first label) (Fragment.single second label) := by
  apply respected.bind respected.ends
  intro whole
  apply respected.bind (respected.connect _ _ _)
  intro _
  exact respected.done whole

theorem concat (left right : Fragment) :
    related Fragment (Fragment.concat left right) (Fragment.concat left right) := by
  apply respected.bind (respected.connect _ _ _)
  intro _
  exact respected.done _

theorem append (before : Option Fragment) (next : Fragment) :
    related Fragment (Fragment.append before next) (Fragment.append before next) := by
  cases before with
  | none => exact respected.done next
  | some before => exact respected.concat before next

theorem union (left right : Fragment) :
    related Fragment (Fragment.union first left right) (Fragment.union second left right) := by
  apply respected.bind respected.ends
  intro whole
  iterate 4
    apply respected.bind (respected.connect _ _ _)
    intro _
  exact respected.done whole

theorem optional (inner : Fragment) :
    related Fragment (Fragment.optional first inner) (Fragment.optional second inner) := by
  apply respected.bind respected.ends
  intro whole
  iterate 3
    apply respected.bind (respected.connect _ _ _)
    intro _
  exact respected.done whole

theorem star (inner : Fragment) :
    related Fragment (Fragment.star first inner) (Fragment.star second inner) := by
  apply respected.bind (respected.optional inner)
  intro whole
  apply respected.bind (respected.connect _ _ _)
  intro _
  exact respected.done whole

theorem appendTimes (child : related Fragment work work') (count : Nat)
    (before : Option Fragment) : related (Option Fragment) (Fragment.appendTimes work count before)
      (Fragment.appendTimes work' count before) := by
  induction count generalizing before with
  | zero => exact respected.done before
  | succ count ih =>
      apply respected.bind child
      intro next
      apply respected.bind (respected.append before next)
      intro whole
      exact ih (some whole)

theorem appendAll (operands : List.Forall₂ (related Fragment) works works')
    (before : Option Fragment) : related (Option Fragment) (Fragment.appendAll works before)
      (Fragment.appendAll works' before) := by
  induction operands generalizing before with
  | nil => exact respected.done before
  | cons head _ ih =>
      apply respected.bind head
      intro next
      apply respected.bind (respected.append before next)
      intro whole
      exact ih (some whole)

theorem unionAll (operands : List.Forall₂ (related Fragment) works works')
    (before : Option Fragment) : related (Option Fragment) (Fragment.unionAll first works before)
      (Fragment.unionAll second works' before) := by
  induction operands generalizing before with
  | nil => exact respected.done before
  | cons head _ ih =>
      apply respected.bind head
      intro next
      cases before with
      | none => exact ih (some next)
      | some before =>
          apply respected.bind (respected.union before next)
          intro whole
          exact ih (some whole)

theorem orElse (part : Option Fragment) (otherwise : related Fragment work work') :
    related Fragment (Fragment.orElse part work) (Fragment.orElse part work') := by
  cases part with
  | none => exact otherwise
  | some part => exact respected.done part

theorem optional_child (child : related Fragment work work') :
    related Fragment (do Fragment.optional first (← work))
      (do Fragment.optional second (← work')) :=
  respected.bind child respected.optional

theorem exactly (child : related Fragment work work') (n : Nat) :
    related Fragment (Fragment.repeated first work .exactly (some (.count n)))
      (Fragment.repeated second work' .exactly (some (.count n))) := by
  apply respected.bind (respected.checkBound .exactly n)
  intro _
  apply respected.bind (respected.appendTimes child n none)
  intro whole
  exact respected.orElse whole (respected.single none)

theorem atLeast (child : related Fragment work work') (n : Nat) :
    related Fragment (Fragment.repeated first work .atLeast (some (.count n)))
      (Fragment.repeated second work' .atLeast (some (.count n))) := by
  apply respected.bind (respected.checkBound .atLeast n)
  intro _
  apply respected.bind (respected.appendTimes child n none)
  intro before
  apply respected.bind child
  intro inner
  apply respected.bind (respected.star inner)
  intro last
  exact respected.append before last

theorem between (child : related Fragment work work') (least most : Nat) :
    related Fragment (Fragment.repeated first work .between (some (.range least most)))
      (Fragment.repeated second work' .between (some (.range least most))) := by
  rw [Fragment.repeated, Fragment.repeated]
  by_cases reversed : most < least
  · rw [if_pos reversed, if_pos reversed, throw_bind, throw_bind]
    exact respected.specification _ trivial
  · rw [if_neg reversed, if_neg reversed]
    apply respected.bind (respected.checkBound .between most)
    intro _
    apply respected.bind (respected.appendTimes child least none)
    intro before
    apply respected.bind (respected.appendTimes (respected.optional_child child) _ before)
    intro whole
    exact respected.orElse whole (respected.single none)

theorem repeated (child : related Fragment work work') (kind : Quantifier) (bound : Option Bound) :
    related Fragment (Fragment.repeated first work kind bound)
      (Fragment.repeated second work' kind bound) := by
  match kind, bound with
  | .maybe, none => exact respected.optional_child child
  | .option, none => exact respected.optional_child child
  | .exactly, some (.count n) => exact respected.exactly child n
  | .atLeast, some (.count n) => exact respected.atLeast child n
  | .between, some (.range least most) => exact respected.between child least most
  | .maybe, some _ => exact respected.specification _ trivial
  | .option, some _ => exact respected.specification _ trivial
  | .exactly, none => exact respected.construction _
  | .atLeast, none => exact respected.construction _
  | .between, none => exact respected.construction _
  | .exactly, some (.range _ _) => exact respected.specification _ trivial
  | .atLeast, some (.range _ _) => exact respected.specification _ trivial
  | .between, some (.count _) => exact respected.specification _ trivial

theorem sequence (operands : List.Forall₂ (related Fragment) works works') :
    related Fragment
      (Fragment.nested first do
        Fragment.orElse (← Fragment.appendAll works none) (throw (.construction .emptyGroup)))
      (Fragment.nested second do
        Fragment.orElse (← Fragment.appendAll works' none) (throw (.construction .emptyGroup))) := by
  apply respected.nested
  apply respected.bind (respected.appendAll operands none)
  intro part
  exact respected.orElse part (respected.construction _)

theorem alternative (operands : List.Forall₂ (related Fragment) works works') :
    related Fragment
      (Fragment.nested first do
        Fragment.orElse (← Fragment.unionAll first works none) (throw (.construction .emptyGroup)))
      (Fragment.nested second do
        Fragment.orElse (← Fragment.unionAll second works' none)
          (throw (.construction .emptyGroup))) := by
  apply respected.nested
  apply respected.bind (respected.unionAll operands none)
  intro part
  exact respected.orElse part (respected.construction _)

end Work.Relation.Respected

structure Plan.Related (related : Work.Relation) (first second : Plan) : Prop where
  whole : related Fragment first.whole second.whole
  inSequence : List.Forall₂ (related Fragment) first.inSequence second.inSequence
  inAlternative : List.Forall₂ (related Fragment) first.inAlternative second.inAlternative

theorem Plan.related_single {related : Work.Relation} {work work' : Work Fragment}
    (whole : related Fragment work work') :
    (Plan.single work).Related related (Plan.single work') :=
  ⟨whole, .cons whole .nil, .cons whole .nil⟩

namespace Pattern

variable {related : Work.Relation} {first second : Limits}

theorem plan_related (respected : related.Respected first second) (p : Pattern) :
    (p.plan first).Related related (p.plan second) := by
  induction p with
  | terminal base token =>
      exact Plan.related_single (respected.nested (respected.single (some token)))
  | sequence left right ihl ihr =>
      have operands := List.rel_append ihl.inSequence ihr.inSequence
      have whole : related Fragment ((sequence left right).plan first).whole
          ((sequence left right).plan second).whole := respected.sequence operands
      exact ⟨whole, operands, .cons whole .nil⟩
  | alternative left right ihl ihr =>
      have operands := List.rel_append ihl.inAlternative ihr.inAlternative
      have whole : related Fragment ((alternative left right).plan first).whole
          ((alternative left right).plan second).whole := respected.alternative operands
      exact ⟨whole, .cons whole .nil, operands⟩
  | quantified child kind bound ih =>
      exact Plan.related_single (respected.nested (respected.repeated ih.whole kind bound))

/-- What the elementary steps respect holds between a pattern built under one limit and the same
pattern built under the other. -/
theorem build_related (respected : related.Respected first second) (p : Pattern) :
    related Fragment (p.build first) (p.build second) :=
  (plan_related respected p).whole

end Pattern

end CallOrder
