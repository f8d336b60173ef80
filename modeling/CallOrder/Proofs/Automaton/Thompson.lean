import CallOrder.Automaton.Thompson
import CallOrder.Proofs.Automaton.Spans
import CallOrder.Proofs.Words

/-! Fragments built from patterns: what a piece of work leaves on the workbench, combinator by
combinator, and from it the words of a whole automaton. -/

namespace CallOrder

namespace Work

variable {α β : Type} {bench after : Workbench}

theorem bind_apply (work : Work α) (next : α → Work β) (bench : Workbench) :
    (work >>= next) bench = match work bench with
      | (.ok value, middle) => next value middle
      | (.error e, middle) => (.error e, middle) := by
  show ExceptT.bind work next bench = _
  simp only [ExceptT.bind, ExceptT.mk, bind, StateT.bind]
  rcases work bench with ⟨value | e, middle⟩ <;> rfl

theorem pure_apply (value : α) (bench : Workbench) :
    (pure value : Work α) bench = (.ok value, bench) :=
  rfl

theorem throw_apply (e : Error) (bench : Workbench) :
    (throw e : Work α) bench = (.error e, bench) :=
  rfl

theorem bind_ok {work : Work α} {next : α → Work β} {value : β}
    (done : (work >>= next) bench = (.ok value, after)) :
    ∃ first middle, work bench = (.ok first, middle) ∧ next first middle = (.ok value, after) := by
  rw [bind_apply] at done
  split at done
  · exact ⟨_, _, ‹_›, done⟩
  · cases done

end Work

namespace Fragment

variable {limits : Limits} {bench after : Workbench}

theorem connect_apply (source : Nat) (label : Option Token) (target : Nat) (bench : Workbench) :
    connect source label target bench =
      (.ok (), { bench with nfa := bench.nfa.addEdge source label target }) :=
  rfl

theorem newState_ok {state : Nat} (done : newState limits bench = (.ok state, after)) :
    state = bench.nfa.size ∧ after = { bench with nfa := bench.nfa.addState } := by
  rw [newState] at done
  split at done
  · cases done
    exact ⟨rfl, rfl⟩
  · cases done

theorem ends_ok {whole : Fragment} (done : ends limits bench = (.ok whole, after)) :
    whole = ⟨bench.nfa.size, bench.nfa.size + 1⟩ ∧
      after = { bench with nfa := bench.nfa.addState.addState } := by
  obtain ⟨start, middle, first, rest⟩ := Work.bind_ok done
  obtain ⟨accept, last, second, rest⟩ := Work.bind_ok rest
  obtain ⟨rfl, rfl⟩ := newState_ok first
  obtain ⟨rfl, rfl⟩ := newState_ok second
  rw [Work.pure_apply] at rest
  cases rest
  exact ⟨by rw [Nfa.size_addState], rfl⟩

theorem fresh_links (links : List (Nat × Nfa.Edge)) (exits : Set Nat)
    (present : ∀ exit ∈ exits, exit < bench.nfa.size)
    (sources : ∀ link ∈ links, link.1 = bench.nfa.size ∨ link.1 ∈ exits)
    (grown : after.nfa = bench.nfa.addState.addState.addEdges links) :
    after.nfa.size = bench.nfa.size + 2 ∧
      (∀ state < bench.nfa.size, state ∉ exits →
        after.nfa.edges state = bench.nfa.edges state) ∧
      ∀ state edge, edge ∈ after.nfa.edges state ↔
        edge ∈ bench.nfa.edges state ∨ (state, edge) ∈ links := by
  rw [grown]
  refine ⟨Nfa.size_fresh links, ?_, ?_⟩
  · intro state below other
    apply Nfa.edges_fresh_of_ne
    intro link member same
    rcases sources link member with new | isExit
    · omega
    · exact other (same ▸ isExit)
  · intro state edge
    apply Nfa.mem_edges_fresh
    intro link member
    rcases sources link member with new | isExit
    · omega
    · have below := present link.1 isExit
      omega

def singleLinks (first : Nat) (label : Option Token) : List (Nat × Nfa.Edge) :=
  [(first, ⟨label, first + 1⟩)]

def unionLinks (first : Nat) (left right : Fragment) : List (Nat × Nfa.Edge) :=
  [(first, ⟨none, left.start⟩), (first, ⟨none, right.start⟩), (left.accept, ⟨none, first + 1⟩),
    (right.accept, ⟨none, first + 1⟩)]

def optionalLinks (first : Nat) (inner : Fragment) : List (Nat × Nfa.Edge) :=
  [(first, ⟨none, inner.start⟩), (first, ⟨none, first + 1⟩), (inner.accept, ⟨none, first + 1⟩)]

theorem single_ok {label : Option Token} {whole : Fragment}
    (done : single limits label bench = (.ok whole, after)) :
    whole = ⟨bench.nfa.size, bench.nfa.size + 1⟩ ∧ after.nfa.size = bench.nfa.size + 2 ∧
      after.nfa.Extends bench.nfa bench.nfa.size ∧
      ∀ state edge, edge ∈ after.nfa.edges state ↔
        edge ∈ bench.nfa.edges state ∨
          state = bench.nfa.size ∧ edge = ⟨label, bench.nfa.size + 1⟩ := by
  obtain ⟨_, middle, made, rest⟩ := Work.bind_ok done
  obtain ⟨rfl, rfl⟩ := ends_ok made
  simp only [Work.bind_apply, connect_apply, Work.pure_apply] at rest
  have grown : whole = ⟨bench.nfa.size, bench.nfa.size + 1⟩ ∧
      after.nfa = bench.nfa.addState.addState.addEdges (singleLinks bench.nfa.size label) := by
    cases rest
    exact ⟨rfl, rfl⟩
  have sources : ∀ link ∈ singleLinks bench.nfa.size label,
      link.1 = bench.nfa.size ∨ link.1 ∈ (∅ : Set Nat) := by
    intro link member
    rw [List.mem_singleton.mp member]
    exact Or.inl rfl
  obtain ⟨size, others, edges⟩ := fresh_links _ ∅ (fun _ => False.elim) sources grown.2
  refine ⟨grown.1, size, ⟨by omega, fun state below => others state below id⟩, ?_⟩
  intro state edge
  rw [edges, singleLinks, List.mem_singleton, Prod.mk.injEq]

theorem concat_ok {left right whole : Fragment} (present : left.accept < bench.nfa.size)
    (done : concat left right bench = (.ok whole, after)) :
    whole = ⟨left.start, right.accept⟩ ∧ after.nfa.Joins bench.nfa left.accept right.start := by
  simp only [concat, Work.bind_apply, connect_apply, Work.pure_apply] at done
  cases done
  exact ⟨rfl, Nfa.size_addEdge _ _ _, fun state other => Nfa.edges_addEdge_of_ne other,
    fun state edge => Nfa.mem_edges_addEdge present⟩

theorem union_ok {left right whole : Fragment} (leftPresent : left.accept < bench.nfa.size)
    (rightPresent : right.accept < bench.nfa.size)
    (done : union limits left right bench = (.ok whole, after)) :
    whole = ⟨bench.nfa.size, bench.nfa.size + 1⟩ ∧
      after.nfa.Encloses bench.nfa {left.start, right.start} {left.accept, right.accept}
        False False := by
  obtain ⟨_, middle, made, rest⟩ := Work.bind_ok done
  obtain ⟨rfl, rfl⟩ := ends_ok made
  simp only [Work.bind_apply, connect_apply, Work.pure_apply] at rest
  have grown : whole = ⟨bench.nfa.size, bench.nfa.size + 1⟩ ∧
      after.nfa = bench.nfa.addState.addState.addEdges (unionLinks bench.nfa.size left right) := by
    cases rest
    exact ⟨rfl, rfl⟩
  have present : ∀ exit ∈ ({left.accept, right.accept} : Set Nat), exit < bench.nfa.size := by
    intro exit isExit
    rcases isExit with rfl | rfl
    · exact leftPresent
    · exact rightPresent
  have sources : ∀ link ∈ unionLinks bench.nfa.size left right,
      link.1 = bench.nfa.size ∨ link.1 ∈ ({left.accept, right.accept} : Set Nat) := by
    simp [unionLinks]
  obtain ⟨size, others, edges⟩ := fresh_links _ _ present sources grown.2
  refine ⟨grown.1, size, others, ?_⟩
  intro state edge
  rcases edge with ⟨label, target⟩
  rw [edges]
  simp only [unionLinks, List.mem_cons, List.not_mem_nil, Prod.mk.injEq, Nfa.Edge.mk.injEq,
    Set.mem_insert_iff, Set.mem_singleton_iff]
  grind

theorem optional_ok {inner whole : Fragment} (present : inner.accept < bench.nfa.size)
    (done : optional limits inner bench = (.ok whole, after)) :
    whole = ⟨bench.nfa.size, bench.nfa.size + 1⟩ ∧
      after.nfa.Encloses bench.nfa {inner.start} {inner.accept} True False := by
  obtain ⟨_, middle, made, rest⟩ := Work.bind_ok done
  obtain ⟨rfl, rfl⟩ := ends_ok made
  simp only [Work.bind_apply, connect_apply, Work.pure_apply] at rest
  have grown : whole = ⟨bench.nfa.size, bench.nfa.size + 1⟩ ∧
      after.nfa = bench.nfa.addState.addState.addEdges (optionalLinks bench.nfa.size inner) := by
    cases rest
    exact ⟨rfl, rfl⟩
  have presentToo : ∀ exit ∈ ({inner.accept} : Set Nat), exit < bench.nfa.size := by
    intro exit isExit
    rw [Set.mem_singleton_iff.mp isExit]
    exact present
  have sources : ∀ link ∈ optionalLinks bench.nfa.size inner,
      link.1 = bench.nfa.size ∨ link.1 ∈ ({inner.accept} : Set Nat) := by
    simp [optionalLinks]
  obtain ⟨size, others, edges⟩ := fresh_links _ _ presentToo sources grown.2
  refine ⟨grown.1, size, others, ?_⟩
  intro state edge
  rcases edge with ⟨label, target⟩
  rw [edges]
  simp only [optionalLinks, List.mem_cons, List.not_mem_nil, Prod.mk.injEq, Nfa.Edge.mk.injEq,
    Set.mem_singleton_iff]
  grind

theorem star_ok {inner whole : Fragment} (present : inner.accept < bench.nfa.size)
    (done : star limits inner bench = (.ok whole, after)) :
    whole = ⟨bench.nfa.size, bench.nfa.size + 1⟩ ∧
      after.nfa.Encloses bench.nfa {inner.start} {inner.accept} True True := by
  obtain ⟨_, middle, made, rest⟩ := Work.bind_ok done
  obtain ⟨rfl, around⟩ := optional_ok present made
  simp only [Work.bind_apply, connect_apply, Work.pure_apply] at rest
  cases rest
  have room : inner.accept < middle.nfa.size := by
    rw [around.size]
    omega
  refine ⟨rfl, (Nfa.size_addEdge _ _ _).trans around.size, ?_, ?_⟩
  · intro state below other
    exact (Nfa.edges_addEdge_of_ne other).trans (around.others state below other)
  · intro state given
    rcases given with ⟨label, target⟩
    rw [Nfa.mem_edges_addEdge room, around.edges]
    simp only [Nfa.Edge.mk.injEq, Set.mem_singleton_iff]
    grind

/-- Whatever `work` succeeds in adds one part with the given words and changes nothing else. -/
def Builds (work : Work Fragment) (words : Language Token) : Prop :=
  ∀ ⦃bench after : Workbench⦄ ⦃whole : Fragment⦄, work bench = (.ok whole, after) →
    after.nfa.Extends bench.nfa bench.nfa.size ∧
      whole.Spans after.nfa bench.nfa.size after.nfa.size words

/-- A part that may be missing, in which case its words are `nothing`. -/
def SpansIfAny (nothing : Language Token) (part? : Option Fragment) (n : Nfa) (first limit : Nat)
    (words : Language Token) : Prop :=
  match part? with
  | none => first = limit ∧ words = nothing
  | some part => part.Spans n first limit words

variable {work : Work Fragment} {words more : Language Token} {first : Nat}

theorem builds_single (label : Option Token) : Builds (single limits label) {label.toList} := by
  intro bench after whole done
  obtain ⟨rfl, size, kept, edges⟩ := single_ok done
  refine ⟨kept, ?_⟩
  rw [size]
  exact .single size edges

theorem extends_around {n middle larger : Nfa} {part : Fragment} {skip loop : Prop}
    (kept : middle.Extends n n.size) (spans : part.Spans middle n.size middle.size words)
    (around : larger.Encloses middle {part.start} {part.accept} skip loop) :
    larger.Extends n n.size := by
  refine (around.extends_below kept.size_le ?_).trans kept
  intro exit isExit
  rw [Set.mem_singleton_iff.mp isExit]
  exact spans.accept_mem.1

theorem builds_optional (inner : Builds work words) :
    Builds (do optional limits (← work)) (words + 1) := by
  intro bench after whole done
  obtain ⟨part, middle, made, rest⟩ := Work.bind_ok done
  obtain ⟨kept, spans⟩ := inner made
  obtain ⟨rfl, around⟩ := optional_ok spans.accept_mem.2 rest
  exact ⟨extends_around kept spans around, around.size ▸ spans.optional around⟩

open Computability in
theorem builds_star (inner : Builds work words) : Builds (do star limits (← work)) words∗ := by
  intro bench after whole done
  obtain ⟨part, middle, made, rest⟩ := Work.bind_ok done
  obtain ⟨kept, spans⟩ := inner made
  obtain ⟨rfl, around⟩ := star_ok spans.accept_mem.2 rest
  exact ⟨extends_around kept spans around, around.size ▸ spans.star around⟩

theorem spansIfAny_none (nothing : Language Token) (n : Nfa) :
    SpansIfAny nothing none n n.size n.size nothing :=
  ⟨rfl, rfl⟩

namespace SpansIfAny

variable {nothing : Language Token} {part? : Option Fragment} {n larger : Nfa} {limit : Nat}

theorem first_le (spans : SpansIfAny nothing part? n first limit words) : first ≤ limit := by
  cases part? with
  | none => exact spans.1.le
  | some part => exact spans.start_mem.1.trans spans.start_mem.2.le

theorem frame (spans : SpansIfAny nothing part? n first limit words)
    (kept : larger.Extends n limit) : SpansIfAny nothing part? larger first limit words := by
  cases part? with
  | none => exact spans
  | some part =>
      exact Spans.frame spans kept.size_le fun state present => kept.edges_eq state present.2

end SpansIfAny

theorem append_next {part? : Option Fragment} {next whole : Fragment} {middle : Workbench}
    (there : SpansIfAny 1 part? bench.nfa first bench.nfa.size words) (inner : Builds work more)
    (made : work bench = (.ok next, middle))
    (done : append part? next middle = (.ok whole, after)) :
    after.nfa.Extends bench.nfa first ∧
      whole.Spans after.nfa first after.nfa.size (words * more) := by
  obtain ⟨kept, spans⟩ := inner made
  have grown := kept.anti there.first_le
  cases part? with
  | none =>
      obtain ⟨rfl, rfl⟩ := there
      rw [append, Work.pure_apply] at done
      cases done
      rw [one_mul]
      exact ⟨grown, spans⟩
  | some before =>
      have former : before.Spans middle.nfa first bench.nfa.size words := there.frame kept
      have present : before.accept < middle.nfa.size := former.accept_mem.2.trans_le kept.size_le
      obtain ⟨rfl, joined⟩ := concat_ok present done
      refine ⟨Nfa.Extends.trans ⟨joined.size.ge, ?_⟩ grown,
        joined.size ▸ former.concat spans joined⟩
      intro state below
      have above := former.accept_mem.1
      exact joined.others state (by omega)

theorem appendAll_ok {works : List (Work Fragment)} {languages : List (Language Token)}
    (inner : List.Forall₂ Builds works languages) {part? whole? : Option Fragment}
    (there : SpansIfAny 1 part? bench.nfa first bench.nfa.size words)
    (done : appendAll works part? bench = (.ok whole?, after)) :
    after.nfa.Extends bench.nfa first ∧
      SpansIfAny 1 whole? after.nfa first after.nfa.size (words * languages.prod) := by
  induction inner generalizing bench part? words with
  | nil =>
      rw [appendAll, Work.pure_apply] at done
      cases done
      rw [List.prod_nil, mul_one]
      exact ⟨⟨le_refl _, fun _ _ => rfl⟩, there⟩
  | cons head _ ih =>
      -- what is there already and the next part become what is there for the rest
      obtain ⟨next, middle, made, rest⟩ := Work.bind_ok done
      obtain ⟨whole, later, joined, rest⟩ := Work.bind_ok rest
      obtain ⟨kept, spans⟩ := append_next there head made joined
      obtain ⟨keptToo, all⟩ := ih (show SpansIfAny 1 (some whole) _ _ _ _ from spans) rest
      rw [List.prod_cons, ← mul_assoc]
      exact ⟨keptToo.trans kept, all⟩

theorem appendTimes_eq_appendAll (count : Nat) (part? : Option Fragment) :
    appendTimes work count part? = appendAll (List.replicate count work) part? := by
  induction count generalizing part? with
  | zero => rfl
  | succ count ih =>
      rw [appendTimes, List.replicate_succ, appendAll]
      simp only [ih]

theorem appendTimes_ok (inner : Builds work more) {count : Nat} {part? whole? : Option Fragment}
    (there : SpansIfAny 1 part? bench.nfa first bench.nfa.size words)
    (done : appendTimes work count part? bench = (.ok whole?, after)) :
    after.nfa.Extends bench.nfa first ∧
      SpansIfAny 1 whole? after.nfa first after.nfa.size (words * more ^ count) := by
  rw [appendTimes_eq_appendAll] at done
  have copies : ∀ count,
      List.Forall₂ Builds (List.replicate count work) (List.replicate count more) := by
    intro count
    induction count with
    | zero => exact .nil
    | succ count ih => exact .cons inner ih
  have all := appendAll_ok (copies count) there done
  rwa [List.prod_replicate] at all

theorem unionAll_ok {works : List (Work Fragment)} {languages : List (Language Token)}
    (inner : List.Forall₂ Builds works languages) {part? whole? : Option Fragment}
    (there : SpansIfAny 0 part? bench.nfa first bench.nfa.size words)
    (done : unionAll limits works part? bench = (.ok whole?, after)) :
    after.nfa.Extends bench.nfa first ∧
      SpansIfAny 0 whole? after.nfa first after.nfa.size (words + languages.sum) := by
  induction inner generalizing bench part? words with
  | nil =>
      rw [unionAll, Work.pure_apply] at done
      cases done
      rw [List.sum_nil, add_zero]
      exact ⟨⟨le_refl _, fun _ _ => rfl⟩, there⟩
  | cons head _ ih =>
      obtain ⟨next, middle, made, rest⟩ := Work.bind_ok done
      obtain ⟨kept, spans⟩ := head made
      have grown := kept.anti there.first_le
      rw [List.sum_cons, ← add_assoc]
      cases part? with
      | none =>
          obtain ⟨rfl, rfl⟩ := there
          obtain ⟨keptToo, all⟩ := ih (show SpansIfAny 0 (some next) _ _ _ _ from spans) rest
          rw [zero_add]
          exact ⟨keptToo.trans grown, all⟩
      | some before =>
          obtain ⟨whole, later, joined, rest⟩ := Work.bind_ok rest
          have former : before.Spans middle.nfa first bench.nfa.size _ := there.frame kept
          have present : before.accept < middle.nfa.size :=
            former.accept_mem.2.trans_le kept.size_le
          obtain ⟨rfl, around⟩ := union_ok present spans.accept_mem.2 joined
          have both := around.size ▸ former.union spans around
          obtain ⟨keptToo, all⟩ := ih (show SpansIfAny 0 (some _) _ _ _ _ from both) rest
          refine ⟨keptToo.trans ((around.extends_below ?_ ?_).trans grown), all⟩
          · exact there.first_le.trans kept.size_le
          · intro _ given
            rcases given with rfl | rfl
            · exact former.accept_mem.1
            · exact there.first_le.trans spans.accept_mem.1

theorem orElse_ok {part? : Option Fragment} {whole : Fragment}
    (there : SpansIfAny 1 part? bench.nfa first bench.nfa.size words)
    (done : orElse part? (single limits none) bench = (.ok whole, after)) :
    after.nfa.Extends bench.nfa first ∧ whole.Spans after.nfa first after.nfa.size words := by
  cases part? with
  | none =>
      obtain ⟨rfl, rfl⟩ := there
      exact builds_single none done
  | some part =>
      rw [orElse, Work.pure_apply] at done
      cases done
      exact ⟨⟨le_refl _, fun _ _ => rfl⟩, there⟩

theorem orElse_throw_ok {part? : Option Fragment} {e : Error} {whole : Fragment}
    (done : orElse part? (throw e) bench = (.ok whole, after)) :
    part? = some whole ∧ after = bench := by
  cases part? with
  | none =>
      rw [orElse, Work.throw_apply] at done
      cases done
  | some part =>
      rw [orElse, Work.pure_apply] at done
      cases done
      exact ⟨rfl, rfl⟩

theorem builds_sequence {works : List (Work Fragment)} {factors : List (Language Token)}
    (inner : List.Forall₂ Builds works factors) (e : Error) :
    Builds (do orElse (← appendAll works none) (throw e)) factors.prod := by
  intro bench after whole done
  obtain ⟨part?, middle, joined, rest⟩ := Work.bind_ok done
  obtain ⟨rfl, rfl⟩ := orElse_throw_ok rest
  obtain ⟨kept, spans⟩ := appendAll_ok inner (spansIfAny_none 1 _) joined
  rw [one_mul] at spans
  exact ⟨kept, spans⟩

theorem builds_alternative {works : List (Work Fragment)} {terms : List (Language Token)}
    (inner : List.Forall₂ Builds works terms) (e : Error) :
    Builds (do orElse (← unionAll limits works none) (throw e)) terms.sum := by
  intro bench after whole done
  obtain ⟨part?, middle, joined, rest⟩ := Work.bind_ok done
  obtain ⟨rfl, rfl⟩ := orElse_throw_ok rest
  obtain ⟨kept, spans⟩ := unionAll_ok inner (spansIfAny_none 0 _) joined
  rw [zero_add] at spans
  exact ⟨kept, spans⟩

theorem builds_nested (inner : Builds work words) : Builds (nested limits work) words := by
  intro bench after whole done
  rw [nested] at done
  split at done
  · generalize made : work { bench with depth := bench.depth + 1 } = result at done
    obtain ⟨outcome, later⟩ := result
    cases done
    obtain ⟨kept, spans⟩ := inner made
    exact ⟨kept, spans⟩
  · cases done

theorem checkBound_ok {kind : Quantifier} {bound : Nat} {checked : Unit}
    (done : checkBound limits kind bound bench = (.ok checked, after)) :
    bound ≤ limits.maxBound ∧ after = bench := by
  rw [checkBound] at done
  split at done
  · cases done
    exact ⟨‹_›, rfl⟩
  · cases done

theorem builds_throw (e : Error) (words : Language Token) : Builds (throw e) words := by
  intro bench after whole done
  rw [Work.throw_apply] at done
  cases done

theorem builds_exactly (inner : Builds work words) (n : Nat) :
    Builds (repeated limits work .exactly (some (.count n))) (words ^ n) := by
  intro bench after whole done
  obtain ⟨_, middle, checked, rest⟩ := Work.bind_ok done
  obtain ⟨_, rfl⟩ := checkBound_ok checked
  obtain ⟨part?, later, copied, rest⟩ := Work.bind_ok rest
  obtain ⟨kept, copies⟩ := appendTimes_ok inner (spansIfAny_none 1 _) copied
  obtain ⟨keptToo, spans⟩ := orElse_ok copies rest
  rw [one_mul] at spans
  exact ⟨keptToo.trans kept, spans⟩

theorem builds_atLeast (inner : Builds work words) (n : Nat) :
    Builds (repeated limits work .atLeast (some (.count n)))
      (Pattern.repeatedWords words .atLeast (some (.count n))) := by
  intro bench after whole done
  obtain ⟨_, middle, checked, rest⟩ := Work.bind_ok done
  obtain ⟨_, rfl⟩ := checkBound_ok checked
  obtain ⟨part?, later, copied, rest⟩ := Work.bind_ok rest
  obtain ⟨kept, copies⟩ := appendTimes_ok inner (spansIfAny_none 1 _) copied
  obtain ⟨next, last, made, rest⟩ := Work.bind_ok rest
  obtain ⟨starred, end', around, rest⟩ := Work.bind_ok rest
  have looped : (do star limits (← work) : Work Fragment) later = (.ok starred, end') := by
    rw [Work.bind_apply, made]
    exact around
  obtain ⟨keptToo, spans⟩ := append_next copies (builds_star inner) looped rest
  rw [one_mul, Pattern.pow_mul_kstar] at spans
  exact ⟨keptToo.trans kept, spans⟩

theorem builds_between (inner : Builds work words) (min max : Nat) :
    Builds (repeated limits work .between (some (.range min max)))
      (Pattern.repeatedWords words .between (some (.range min max))) := by
  intro bench after whole done
  rw [repeated] at done
  by_cases reversed : max < min
  · rw [if_pos reversed] at done
    obtain ⟨_, _, failed, _⟩ := Work.bind_ok done
    rw [Work.throw_apply] at failed
    cases failed
  · rw [if_neg reversed] at done
    obtain ⟨_, middle, checked, rest⟩ := Work.bind_ok done
    obtain ⟨_, rfl⟩ := checkBound_ok checked
    obtain ⟨least?, later, copied, rest⟩ := Work.bind_ok rest
    obtain ⟨kept, least⟩ := appendTimes_ok inner (spansIfAny_none 1 _) copied
    obtain ⟨most?, last, extended, rest⟩ := Work.bind_ok rest
    obtain ⟨keptToo, most⟩ := appendTimes_ok (builds_optional inner) least extended
    obtain ⟨keptThree, spans⟩ := orElse_ok most rest
    rw [one_mul, Pattern.pow_mul_add_one_pow words min max (by omega)] at spans
    exact ⟨keptThree.trans (keptToo.trans kept), spans⟩

theorem builds_repeated (inner : Builds work words) (kind : Quantifier) (bound : Option Bound) :
    Builds (repeated limits work kind bound) (Pattern.repeatedWords words kind bound) := by
  match kind, bound with
  | .maybe, none => exact builds_optional inner
  | .option, none => exact builds_optional inner
  | .exactly, some (.count n) => exact builds_exactly inner n
  | .atLeast, some (.count n) => exact builds_atLeast inner n
  | .between, some (.range min max) => exact builds_between inner min max
  | .maybe, some _ => exact builds_throw _ _
  | .option, some _ => exact builds_throw _ _
  | .exactly, none => exact builds_throw _ _
  | .atLeast, none => exact builds_throw _ _
  | .between, none => exact builds_throw _ _
  | .exactly, some (.range _ _) => exact builds_throw _ _
  | .atLeast, some (.range _ _) => exact builds_throw _ _
  | .between, some (.count _) => exact builds_throw _ _

end Fragment

/-- A plan for the given words: as a whole, and cut into operands of either kind. -/
structure Plan.Denotes (plan : Plan) (words : Language Token) : Prop where
  whole : Fragment.Builds plan.whole words
  inSequence : ∃ factors, List.Forall₂ Fragment.Builds plan.inSequence factors ∧
    factors.prod = words
  inAlternative : ∃ terms, List.Forall₂ Fragment.Builds plan.inAlternative terms ∧
    terms.sum = words

theorem Plan.denotes_single {work : Work Fragment} {words : Language Token}
    (inner : Fragment.Builds work words) : (Plan.single work).Denotes words :=
  ⟨inner, ⟨[words], .cons inner .nil, List.prod_singleton⟩,
    ⟨[words], .cons inner .nil, List.sum_singleton⟩⟩

namespace Pattern

theorem plan_denotes (limits : Limits) (p : Pattern) : (p.plan limits).Denotes p.words := by
  -- a chain is built from the operands of its two halves, so the hypotheses are about those too
  induction p with
  | terminal base token =>
      exact Plan.denotes_single (Fragment.builds_nested (Fragment.builds_single (some token)))
  | sequence left right ihl ihr =>
      obtain ⟨front, inFront, frontWords⟩ := ihl.inSequence
      obtain ⟨back, inBack, backWords⟩ := ihr.inSequence
      have operands := List.rel_append inFront inBack
      have product : (front ++ back).prod = (sequence left right).words := by
        rw [List.prod_append, frontWords, backWords, words]
      have whole : Fragment.Builds ((sequence left right).plan limits).whole _ :=
        Fragment.builds_nested (Fragment.builds_sequence operands _)
      rw [product] at whole
      exact ⟨whole, ⟨_, operands, product⟩, ⟨_, .cons whole .nil, List.sum_singleton⟩⟩
  | alternative left right ihl ihr =>
      obtain ⟨front, inFront, frontWords⟩ := ihl.inAlternative
      obtain ⟨back, inBack, backWords⟩ := ihr.inAlternative
      have operands := List.rel_append inFront inBack
      have total : (front ++ back).sum = (alternative left right).words := by
        rw [List.sum_append, frontWords, backWords, words]
      have whole : Fragment.Builds ((alternative left right).plan limits).whole _ :=
        Fragment.builds_nested (Fragment.builds_alternative operands _)
      rw [total] at whole
      exact ⟨whole, ⟨_, .cons whole .nil, List.prod_singleton⟩, ⟨_, operands, total⟩⟩
  | quantified child kind bound ih =>
      apply Plan.denotes_single
      exact Fragment.builds_nested (Fragment.builds_repeated ih.whole kind bound)

theorem toNfa_spans {limits : Limits} {p : Pattern} {n : Nfa} (built : p.toNfa limits = .ok n) :
    (⟨n.start, n.accept⟩ : Fragment).Spans n 0 n.size p.words := by
  rw [toNfa] at built
  split at built
  · rename_i whole bench done
    cases built
    obtain ⟨_, spans⟩ := (p.plan_denotes limits).whole done
    exact spans.frame (le_refl _) fun _ _ => rfl
  · cases built

end Pattern

end CallOrder
