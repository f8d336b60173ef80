import CallOrder.Proofs.Automaton.Reasons
import CallOrder.Proofs.Cache
import CallOrder.Proofs.Closing
import CallOrder.Proofs.Questions
import CallOrder.Proofs.RuleDocument

/-!
The operations that an order binds itself. Main statement: they are those of the last steps that
bind its tokens, for a loaded order those of its document, and a judgement goes by them whatever the
context binds.
-/

namespace CallOrder

namespace Draft

theorem operations_pushOrRecord (d : Draft) (result : Except ConstructionError Pattern) :
    (d.pushOrRecord result).operations = d.operations := by
  cases result <;> rfl

theorem operations_alternative (d : Draft) (left right : Except ConstructionError Pattern) :
    (match left, right with
      | .ok l, .ok r => d.push (.alternative l r)
      | l, r => (d.recordFault l).recordFault r).operations = d.operations := by
  cases left <;> cases right <;> rfl

theorem getElem?_empty (token : Token) : empty.operations[token]? = none :=
  Std.ExtTreeMap.getElem?_empty

theorem getElem?_adopt (d inner : Draft) (token : Token) :
    (d.adopt inner).operations[token]? = inner.operations[token]?.or d.operations[token]? :=
  getElem?_insertMany_toList d.operations inner.operations token

end Draft

namespace Step

def binding? (token : Token) : Step → Option Operation
  | bind name operation => if name = token then some operation else none
  | _ => none

/-- What the last of the steps that bind the token binds it to. -/
def lastBinding? (token : Token) (steps : List Step) : Option Operation :=
  steps.reverse.findSome? (binding? token)

variable {token : Token} {op : Operation} {step : Step} {steps : List Step}

theorem lastBinding?_append (steps more : List Step) : lastBinding? token (steps ++ more) =
    (lastBinding? token more).or (lastBinding? token steps) := by
  rw [lastBinding?, List.reverse_append, List.findSome?_append]
  rfl

theorem lastBinding?_singleton (step : Step) : lastBinding? token [step] = step.binding? token := by
  cases found : step.binding? token <;> simp [lastBinding?, found]

theorem lastBinding?_cons (unbound : step.binding? token = none) (steps : List Step) :
    lastBinding? token (step :: steps) = lastBinding? token steps := by
  rw [← List.singleton_append, lastBinding?_append, lastBinding?_singleton, unbound,
    Option.or_none]

variable (base : Base) (token : Token)

mutual

/-- A block is bound apart from what is around it and then wins over what came before, so that the
last step holds at any depth. -/
theorem getElem?_run (d : Draft) : (step : Step) → (step.run base d).operations[token]? =
    (lastBinding? token step.deep).or d.operations[token]?
  | .token name => by
      rw [run, deep]
      rfl
  | .terminal own name => by
      rw [run, deep]
      rfl
  | .bind name operation => by
      rw [run, deep, lastBinding?_singleton, binding?, Draft.push, Draft.bind]
      simp only [Std.ExtTreeMap.getElem?_insert, Std.LawfulEqCmp.compare_eq_iff_eq]
      split <;> rfl
  | .pattern p => by
      rw [run, deep]
      rfl
  | .block grouping steps => by
      rw [run, deep, Draft.operations_pushOrRecord, Draft.getElem?_adopt, getElem?_runAll,
        Draft.getElem?_empty, Option.or_none, lastBinding?_cons rfl]
  | .alternative left right => by
      -- the left side is adopted first, so that the right one wins over it
      rw [run, deep]
      refine (congrArg (·[token]?) (Draft.operations_alternative _ _ _)).trans ?_
      rw [Draft.getElem?_adopt, Draft.getElem?_adopt, getElem?_runAll, getElem?_runAll,
        Draft.getElem?_empty, Option.or_none, Option.or_none, lastBinding?_cons rfl,
        lastBinding?_append, Option.or_assoc]
  | .quantified kind bound steps => by
      rw [run, deep, Draft.operations_pushOrRecord, Draft.getElem?_adopt, getElem?_runAll,
        Draft.getElem?_empty, Option.or_none, lastBinding?_cons rfl]

theorem getElem?_runAll (d : Draft) : (steps : List Step) →
    (runAll base d steps).operations[token]? =
      (lastBinding? token (allDeep steps)).or d.operations[token]?
  | [] => by
      rw [runAll, allDeep]
      rfl
  | step :: steps => by
      rw [runAll, allDeep, getElem?_runAll, getElem?_run, lastBinding?_append, Option.or_assoc]

end

end Step

namespace Script

def Binds (s : Script) (token : Token) (op : Operation) : Prop :=
  ∃ before after, Step.allDeep s.steps = before ++ .bind token op :: after ∧
    ∀ other, .bind token other ∉ after

variable {s : Script} {order : Order}

end Script

theorem Grouping.leaves_fold (grouping : Grouping) {members : List Pattern} {p : Pattern}
    (folded : grouping.fold members = .ok p) : p.leaves = members.flatMap Pattern.leaves := by
  have leaves_combine : ∀ l r, (grouping.combine l r).leaves = l.leaves ++ r.leaves := by
    cases grouping with
    | group => exact Pattern.leaves_sequence
    | set => exact Pattern.leaves_alternative
  obtain ⟨first, rest, rfl, rfl⟩ := fold_eq_ok folded
  clear folded
  induction rest generalizing first with
  | nil => simp
  | cons next rest ih => simp [ih, leaves_combine]

theorem Pattern.leaves_repeatGroup {kind : Quantifier} {bound : Option Bound}
    {members : List Pattern} {p : Pattern} (done : repeatGroup kind bound members = .ok p) :
    p.leaves = members.flatMap leaves := by
  obtain ⟨child, folded, quantified⟩ := bind_eq_ok done
  obtain ⟨_, rfl⟩ := quantify_eq_ok_iff.mp quantified
  rw [leaves_quantified]
  exact Grouping.group.leaves_fold folded

namespace Form

theorem leaves_fold {form : Form} {members : List Pattern} {p : Pattern}
    (folded : form.fold members = .ok p) : p.leaves = members.flatMap Pattern.leaves := by
  cases form with
  | group => exact Grouping.group.leaves_fold folded
  | set => exact Grouping.set.leaves_fold folded
  | maybe | option | oneOrMore | zeroOrMore | exactly | atLeast | between =>
      exact Pattern.leaves_repeatGroup folded

theorem deep_step (form : Form) (steps : List Step) :
    (form.step steps).deep = form.step steps :: Step.allDeep steps := by
  cases form <;> simp only [step, Step.maybe, Step.option, Step.exactly, Step.atLeast,
    Step.between, Step.oneOrMore, Step.zeroOrMore, Step.deep]

theorem binding?_step (form : Form) (steps : List Step) (token : Token) :
    (form.step steps).binding? token = none := by
  cases form <;> rfl

end Form

namespace Entry

variable (operations : OperationTable) (base : Base)

mutual

theorem tokens_written : (entry : Entry) → (p : Pattern) →
    (entry.step operations).written base = .ok p → p.leaves.map (·.2) = entry.tokens
  | token name, p, written => by
      rw [written_token] at written
      cases written
      rw [tokens]
      rfl
  | block form entries, p, written => by
      rw [written_block] at written
      obtain ⟨members, all, folded⟩ := bind_eq_ok written
      rw [form.leaves_fold folded, tokens, tokens_allWritten entries members all]

theorem tokens_allWritten : (entries : List Entry) → (members : List Pattern) →
    Step.allWritten base (steps operations entries) = .ok members →
    (members.flatMap Pattern.leaves).map (·.2) = tokensIn entries
  | [], members, written => by
      rw [steps, Step.allWritten] at written
      cases written
      rw [tokensIn]
      rfl
  | entry :: entries, members, written => by
      rw [steps, Step.allWritten] at written
      obtain ⟨first, one, written⟩ := bind_eq_ok written
      obtain ⟨rest, others, written⟩ := bind_eq_ok written
      cases written
      rw [List.flatMap_cons, List.map_append, tokensIn, tokens_written entry first one,
        tokens_allWritten entries rest others]

end

variable (token : Token)

mutual

theorem lastBinding?_step : (entry : Entry) →
    Step.lastBinding? token (entry.step operations).deep =
      if token ∈ entry.tokens then operations[token]? else none
  | .token name => by
      rw [step, tokens]
      simp only [List.mem_singleton]
      cases known : operations[name]? with
      | none =>
          rw [Step.deep, Step.lastBinding?_singleton]
          split
          case isTrue same => exact (same ▸ known).symm
          case isFalse => rfl
      | some operation =>
          rw [Step.deep, Step.lastBinding?_singleton, Step.binding?]
          split
          case isTrue same => rw [if_pos same.symm, ← same, known]
          case isFalse other => rw [if_neg (Ne.symm other)]
  | .block form entries => by
      rw [step, tokens, form.deep_step, Step.lastBinding?_cons (form.binding?_step _ _),
        lastBinding?_steps entries]

theorem lastBinding?_steps : (entries : List Entry) →
    Step.lastBinding? token (Step.allDeep (steps operations entries)) =
      if token ∈ tokensIn entries then operations[token]? else none
  | [] => by
      rw [steps, tokensIn, Step.allDeep]
      rfl
  | entry :: entries => by
      rw [steps, tokensIn, Step.allDeep, Step.lastBinding?_append, lastBinding?_step entry,
        lastBinding?_steps entries]
      by_cases early : token ∈ entry.tokens
      · by_cases late : token ∈ tokensIn entries <;> simp [early, late]
      · simp [early]

end

end Entry

/-- The same answers on everything that an order asks, as far as it asks for calls with tables that
are `admitted`. -/
structure Queries.SameOn (admitted : OperationTable → Prop) (q other : Queries) : Prop where
  arena : other.arena = q.arena
  resolveFitting : other.resolveFitting = q.resolveFitting
  traceOf : ∀ base table, admitted table → other.traceOf base table = q.traceOf base table

namespace Ordered

variable {rule : Ordered} {cache : Option Cache} {context other : Context} {q r : Queries}
  {operations : OperationTable} {admitted : OperationTable → Prop} {dfa : Dfa} {e : Error}

theorem walkAll_congr (same : q.SameOn admitted r) (admits : admitted operations) (info : Rule)
    (reportPassing : Bool) (bases : List Base) :
    walkAll dfa info reportPassing operations r bases =
      walkAll dfa info reportPassing operations q bases := by
  induction bases with
  | nil => rfl
  | cons base bases ih =>
      rw [walkAll, walkAll, ih, same.traceOf base operations admits, same.arena]

theorem selectedBases_congr (same : q.SameOn admitted r) (selection : BaseSelection) :
    selectedBases selection operations r = selectedBases selection operations q := by
  cases selection with
  | explicit bases => rfl
  | all => rw [selectedBases, selectedBases, same.arena]
  | ofToken token => rw [selectedBases, selectedBases, same.resolveFitting, same.arena]

/-- Of a context a judgement takes the rule and the table of operations, and of the questions for
calls it asks those with this table. -/
theorem judge_congr (sameRule : other.rule = context.rule)
    (sameOperations : rule.operations other = rule.operations context) (same : q.SameOn admitted r)
    (admits : admitted (rule.operations context)) (cache : Option Cache) :
    (Check.ordered rule cache).judge other r = (Check.ordered rule cache).judge context q := by
  rw [Check.judge_ordered, Check.judge_ordered]
  refine bind_congr fun dfa => ?_
  rw [judgeBy, judgeBy, sameRule, sameOperations, selectedBases_congr same]
  refine bind_congr fun _ => bind_congr fun bases => ?_
  rw [walkBases_inOrder, walkBases_inOrder, walkAll_congr same admits]

end Ordered

namespace RuleDocument

/-- The table binds every token of the document as the document does. -/
def BoundBy (d : RuleDocument) (table : OperationTable) : Prop :=
  ∀ token ∈ d.tokens, table[token]? = d.operations[token]?

variable {d : RuleDocument} {info : Rule} {order : Order} {context other : Context}

theorem BoundBy.mem {table : OperationTable} (bound : d.BoundBy table) (declared : d.Declared)
    {token : Token} (used : token ∈ d.tokens) : token ∈ table := by
  rw [Std.ExtTreeMap.mem_iff_isSome_getElem?, bound token used,
    Std.ExtTreeMap.isSome_getElem?_iff_mem]
  exact declared token used

variable (resolved : d.resolve = .ok (info, order)) (selection : BaseSelection)
  (settings : Settings)

include resolved

end RuleDocument

end CallOrder
