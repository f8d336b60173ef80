import CallOrder.Proofs.Result
import CallOrder.Script

/-!
What a script writes down, read off its steps without a draft, and that running it comes to the
same: a draft gains the members that its steps stand for, or notes the first of their faults.
-/

namespace CallOrder

mutual

def Step.written (base : Base) : Step → Except ConstructionError Pattern
  | .token name => .ok (.terminal base name)
  | .terminal own name => .ok (.terminal own name)
  | .bind name _ => .ok (.terminal base name)
  | .pattern p => .ok p
  | .block grouping steps => do grouping.fold (← Step.allWritten base steps)
  | .alternative left right => do
    let l ← Grouping.group.fold (← Step.allWritten base left)
    let r ← Grouping.group.fold (← Step.allWritten base right)
    return .alternative l r
  | .quantified kind bound steps => do
    (← Grouping.group.fold (← Step.allWritten base steps)).quantify kind bound

def Step.allWritten (base : Base) : List Step → Except ConstructionError (List Pattern)
  | [] => .ok []
  | step :: steps => do
    let first ← step.written base
    let rest ← Step.allWritten base steps
    return first :: rest

end

namespace Draft

/-- `after` has the given members on top of those of `before`, or notes why there are none. -/
def Gains (before after : Draft) : Except ConstructionError (List Pattern) → Prop
  | .ok members => after.members.toList = before.members.toList ++ members ∧
      after.fault = before.fault
  | .error e => after.fault = before.fault.or (some e)

variable {before middle after inner : Draft} {grouping : Grouping}

theorem gains_nothing (before : Draft) : before.Gains before (.ok []) := by
  simp [Gains]

theorem Gains.append {first : Except ConstructionError Pattern}
    {rest : Except ConstructionError (List Pattern)}
    (firstGain : before.Gains middle (first.map ([·]))) (restGain : middle.Gains after rest) :
    before.Gains after (do return (← first) :: (← rest)) := by
  cases first with
  | error e =>
      have noted : middle.fault = before.fault.or (some e) := firstGain
      cases rest with
      | error later =>
          have kept : after.fault = middle.fault.or (some later) := restGain
          show after.fault = before.fault.or (some e)
          rw [kept, noted, Option.or_assoc, Option.some_or]
      | ok members => exact restGain.2.trans noted
  | ok p =>
      obtain ⟨one, sound⟩ := firstGain
      cases rest with
      | error e =>
          have noted : after.fault = middle.fault.or (some e) := restGain
          show after.fault = before.fault.or (some e)
          rw [noted, sound]
      | ok members =>
          obtain ⟨more, stillSound⟩ := restGain
          refine ⟨?_, stillSound.trans sound⟩
          rw [more, one, List.append_assoc, List.singleton_append]

theorem gains_push (d : Draft) (p : Pattern) : d.Gains (d.push p) (.ok [p]) := by
  simp [Gains, push]

theorem gains_pushOrRecord (d inner : Draft) (result : Except ConstructionError Pattern) :
    d.Gains ((d.adopt inner).pushOrRecord result) (result.map ([·])) := by
  cases result with
  | error e => rfl
  | ok p => exact gains_push (d.adopt inner) p

theorem gains_alternative (d first second : Draft)
    (left right : Except ConstructionError Pattern) :
    d.Gains (match left, right with
      | .ok l, .ok r => ((d.adopt first).adopt second).push (.alternative l r)
      | l, r => (((d.adopt first).adopt second).recordFault l).recordFault r)
      (Except.map ([·]) do return .alternative (← left) (← right)) := by
  cases left with
  | error e =>
      cases right with
      | error later =>
          show (d.fault.or (some e)).or (some later) = d.fault.or (some e)
          rw [Option.or_assoc, Option.some_or]
      | ok r => rfl
  | ok l =>
      cases right with
      | error e => rfl
      | ok r => exact gains_push ((d.adopt first).adopt second) (.alternative l r)

theorem close_of_gains {written : Except ConstructionError (List Pattern)}
    (gain : empty.Gains inner written) (grouping : Grouping) :
    inner.close grouping = written >>= grouping.fold := by
  cases written with
  | error e =>
      have fault : inner.fault = some e := gain
      simp only [close, fault]
      rfl
  | ok members =>
      obtain ⟨list, sound⟩ := gain
      have fault : inner.fault = none := sound
      have all : inner.members.toList = members := list
      simp only [close, fault, all, ok_bind]

end Draft

mutual

theorem Step.run_gains (base : Base) (d : Draft) :
    (step : Step) → d.Gains (step.run base d) ((step.written base).map ([·]))
  | .token name => by
      rw [Step.run, Step.written]
      exact d.gains_push _
  | .terminal own name => by
      rw [Step.run, Step.written]
      exact d.gains_push _
  | .bind name operation => by
      rw [Step.run, Step.written]
      exact (d.bind name operation).gains_push _
  | .pattern p => by
      rw [Step.run, Step.written]
      exact d.gains_push p
  | .block grouping steps => by
      have inner := Step.runAll_gains base .empty steps
      rw [Step.run, Step.written, ← Draft.close_of_gains inner grouping]
      exact Draft.gains_pushOrRecord d _ _
  | .alternative left right => by
      have first := Draft.close_of_gains (Step.runAll_gains base .empty left) .group
      have second := Draft.close_of_gains (Step.runAll_gains base .empty right) .group
      have gain := Draft.gains_alternative d
        (Step.runAll base .empty left) (Step.runAll base .empty right)
        (Step.allWritten base left >>= Grouping.group.fold)
        (Step.allWritten base right >>= Grouping.group.fold)
      simp only [bind_assoc] at gain
      rw [Step.run, Step.written, first, second]
      exact gain
  | .quantified kind bound steps => by
      have inner := Step.runAll_gains base .empty steps
      rw [Step.run, Step.written, Draft.close_of_gains inner .group, bind_assoc]
      exact Draft.gains_pushOrRecord d _ _

theorem Step.runAll_gains (base : Base) (d : Draft) :
    (steps : List Step) → d.Gains (Step.runAll base d steps) (Step.allWritten base steps)
  | [] => by
      rw [Step.runAll, Step.allWritten]
      exact Draft.gains_nothing d
  | step :: steps => by
      rw [Step.runAll, Step.allWritten]
      exact (Step.run_gains base d step).append (Step.runAll_gains base (step.run base d) steps)

end

theorem Script.close_eq (s : Script) :
    s.close = Step.allWritten s.base s.steps >>= s.grouping.fold :=
  Draft.close_of_gains (Step.runAll_gains s.base .empty s.steps) s.grouping

end CallOrder
