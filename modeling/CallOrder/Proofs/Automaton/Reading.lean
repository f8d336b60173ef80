import CallOrder.Automaton.Nfa
import CallOrder.Proofs.Search
import Mathlib.Computability.Language
import Mathlib.Order.CompletePartialOrder

/-! Ways through a nondeterministic automaton, and the simulation by sets of states that finds
them. -/

namespace CallOrder.Nfa

/-- Some way along the edges from the first state to the last one reads the word. -/
inductive Reads (n : Nfa) : Nat → List Token → Nat → Prop where
  | done (state : Nat) : Reads n state [] state
  | silent {source middle target : Nat} {word : List Token}
      (edge : ⟨none, middle⟩ ∈ n.edges source) (rest : Reads n middle word target) :
      Reads n source word target
  | token {source middle target : Nat} {token : Token} {word : List Token}
      (edge : ⟨some token, middle⟩ ∈ n.edges source) (rest : Reads n middle word target) :
      Reads n source (token :: word) target

namespace Reads

variable {n : Nfa} {source middle target : Nat} {front back word : List Token} {token : Token}

theorem append (first : Reads n source front middle) (second : Reads n middle back target) :
    Reads n source (front ++ back) target := by
  induction first with
  | done => exact second
  | silent edge _ ih => exact .silent edge (ih second)
  | token edge _ ih => exact .token edge (ih second)

theorem edge {edge : Edge} (present : edge ∈ n.edges source) :
    Reads n source edge.label.toList edge.target := by
  rcases edge with ⟨_ | token, middle⟩
  · exact .silent present (.done middle)
  · exact .token present (.done middle)

theorem mono {larger : Nfa} (edges : ∀ state, ∀ edge ∈ n.edges state, edge ∈ larger.edges state)
    (reads : Reads n source word target) : Reads larger source word target := by
  induction reads with
  | done state => exact .done state
  | silent edge _ ih => exact .silent (edges _ _ edge) ih
  | token edge _ ih => exact .token (edges _ _ edge) ih

theorem inside {region : Set Nat}
    (closed : ∀ state ∈ region, ∀ edge ∈ n.edges state, edge.target ∈ region)
    (start : source ∈ region) (reads : Reads n source word target) : target ∈ region := by
  induction reads with
  | done => exact start
  | silent edge _ ih => exact ih (closed _ start _ edge)
  | token edge _ ih => exact ih (closed _ start _ edge)

theorem congr {other : Nfa} {region : Set Nat}
    (closed : ∀ state ∈ region, ∀ edge ∈ n.edges state, edge.target ∈ region)
    (same : ∀ state ∈ region, other.edges state = n.edges state) (start : source ∈ region)
    (reads : Reads n source word target) : Reads other source word target := by
  induction reads with
  | done state => exact .done state
  | silent edge _ ih => exact .silent (same _ start ▸ edge) (ih (closed _ start _ edge))
  | token edge _ ih => exact .token (same _ start ▸ edge) (ih (closed _ start _ edge))

/-- Labels of the states with words that all edges of a region respect hold what can be read from
a state to the target. -/
theorem labelled {region : Set Nat} {label : Nat → Language Token}
    (closed : ∀ state ∈ region, ∀ edge ∈ n.edges state, edge.target ∈ region)
    (ends : [] ∈ label target)
    (respects : ∀ state ∈ region, ∀ edge ∈ n.edges state, ∀ word ∈ label edge.target,
      edge.label.toList ++ word ∈ label state)
    (start : source ∈ region) (reads : Reads n source word target) : word ∈ label source := by
  induction reads with
  | done => exact ends
  | silent edge _ ih => exact respects _ start _ edge _ (ih ends (closed _ start _ edge))
  | token edge _ ih => exact respects _ start _ edge _ (ih ends (closed _ start _ edge))

theorem cons_iff : Reads n source (token :: word) target ↔
    ∃ before after, Reads n source [] before ∧ ⟨some token, after⟩ ∈ n.edges before ∧
      Reads n after word target := by
  constructor
  · intro reads
    generalize same : token :: word = whole at reads
    induction reads with
    | done => cases same
    | silent edge _ ih =>
        obtain ⟨before, after, silent, link, rest⟩ := ih same
        exact ⟨before, after, .silent edge silent, link, rest⟩
    | token edge rest _ =>
        cases same
        exact ⟨_, _, .done _, edge, rest⟩
  · intro given
    rcases given with ⟨before, after, silent, link, rest⟩
    exact silent.append (.token link rest)

theorem append_iff : Reads n source (front ++ back) target ↔
    ∃ middle, Reads n source front middle ∧ Reads n middle back target := by
  constructor
  · intro reads
    induction front generalizing source with
    | nil => exact ⟨source, .done source, reads⟩
    | cons token front ih =>
        obtain ⟨before, after, silent, link, rest⟩ := cons_iff.mp reads
        obtain ⟨middle, first, second⟩ := ih rest
        exact ⟨middle, cons_iff.mpr ⟨before, after, silent, link, first⟩, second⟩
  · intro given
    rcases given with ⟨middle, first, second⟩
    exact first.append second

end Reads

def wordsTo (n : Nfa) (target source : Nat) : Language Token :=
  {word | n.Reads source word target}

theorem mem_wordsTo {n : Nfa} {target source : Nat} {word : List Token} :
    word ∈ n.wordsTo target source ↔ n.Reads source word target :=
  Iff.rfl

theorem nil_mem_wordsTo (n : Nfa) (state : Nat) : [] ∈ n.wordsTo state state :=
  .done state

variable {n : Nfa}

@[simp] theorem size_addState : n.addState.size = n.size + 1 := Array.size_push _

@[simp] theorem size_addEdge (source : Nat) (label : Option Token) (target : Nat) :
    (n.addEdge source label target).size = n.size := Array.size_modify

theorem edges_outside {state : Nat} (outside : n.size ≤ state) : n.edges state = [] := by
  rw [edges, Array.getD_eq_getD_getElem?, Array.getElem?_eq_none outside, Option.getD_none]

@[simp] theorem edges_addState (state : Nat) : n.addState.edges state = n.edges state := by
  rcases Nat.lt_trichotomy state n.size with below | rfl | above
  · simp only [edges, addState, Array.getD_eq_getD_getElem?]
    rw [Array.getElem?_push_lt below, Array.getElem?_eq_getElem below]
  · rw [edges_outside (le_refl _)]
    simp [edges, addState, size]
  · have beyond : n.addState.size ≤ state := by
      rw [size_addState]
      omega
    rw [edges_outside beyond, edges_outside (by omega)]

theorem edges_addEdge_of_ne {source : Nat} {label : Option Token} {target state : Nat}
    (other : state ≠ source) : (n.addEdge source label target).edges state = n.edges state := by
  have differs : ¬ source = state := fun same => other same.symm
  simp [edges, addEdge, Array.getD_eq_getD_getElem?, Array.getElem?_modify, differs]

theorem mem_edges_addEdge {source : Nat} {label : Option Token} {target : Nat}
    (present : source < n.size) {state : Nat} {edge : Edge} :
    edge ∈ (n.addEdge source label target).edges state ↔
      edge ∈ n.edges state ∨ state = source ∧ edge = ⟨label, target⟩ := by
  by_cases same : state = source
  · subst same
    have there : state < n.states.size := present
    simp only [edges, addEdge, Array.getD_eq_getD_getElem?, Array.getElem?_modify]
    simp [there]
  · rw [edges_addEdge_of_ne same]
    simp [same]

def addEdges (n : Nfa) (links : List (Nat × Edge)) : Nfa :=
  links.foldl (fun n link => n.addEdge link.1 link.2.label link.2.target) n

@[simp] theorem size_addEdges (links : List (Nat × Edge)) : (n.addEdges links).size = n.size := by
  induction links generalizing n with
  | nil => rfl
  | cons link links ih => exact ih.trans (size_addEdge _ _ _)

theorem mem_edges_addEdges {links : List (Nat × Edge)} (present : ∀ link ∈ links, link.1 < n.size)
    {state : Nat} {edge : Edge} :
    edge ∈ (n.addEdges links).edges state ↔ edge ∈ n.edges state ∨ (state, edge) ∈ links := by
  induction links generalizing n with
  | nil => simp [addEdges]
  | cons link links ih =>
      obtain ⟨here, later⟩ := List.forall_mem_cons.mp present
      have still : ∀ other ∈ links,
          other.1 < (n.addEdge link.1 link.2.label link.2.target).size := by
        rw [size_addEdge]
        exact later
      rw [addEdges, List.foldl_cons]
      rw [← addEdges, ih still, mem_edges_addEdge here, List.mem_cons, Prod.ext_iff, or_assoc]

theorem edges_addEdges_of_ne {links : List (Nat × Edge)} {state : Nat}
    (other : ∀ link ∈ links, state ≠ link.1) : (n.addEdges links).edges state = n.edges state := by
  induction links generalizing n with
  | nil => rfl
  | cons link links ih =>
      obtain ⟨here, later⟩ := List.forall_mem_cons.mp other
      exact (ih later).trans (edges_addEdge_of_ne here)

theorem mem_edges_fresh {links : List (Nat × Edge)} (present : ∀ link ∈ links, link.1 < n.size + 2)
    {state : Nat} {edge : Edge} :
    edge ∈ (n.addState.addState.addEdges links).edges state ↔
      edge ∈ n.edges state ∨ (state, edge) ∈ links := by
  have room : ∀ link ∈ links, link.1 < n.addState.addState.size := by
    rw [size_addState, size_addState]
    exact present
  rw [mem_edges_addEdges room, edges_addState, edges_addState]

theorem edges_fresh_of_ne {links : List (Nat × Edge)} {state : Nat}
    (other : ∀ link ∈ links, state ≠ link.1) :
    (n.addState.addState.addEdges links).edges state = n.edges state := by
  rw [edges_addEdges_of_ne other, edges_addState, edges_addState]

theorem size_fresh (links : List (Nat × Edge)) :
    (n.addState.addState.addEdges links).size = n.size + 2 := by
  rw [size_addEdges, size_addState, size_addState]

theorem mem_successors {label : Option Token} {source target : Nat} :
    target ∈ n.successors label source ↔ ⟨label, target⟩ ∈ n.edges source := by
  rw [successors, List.mem_filterMap]
  constructor
  · intro given
    rcases given with ⟨⟨other, middle⟩, present, found⟩
    split at found
    case isTrue same =>
      cases found
      cases same
      exact present
    case isFalse => cases found
  · intro present
    exact ⟨_, present, if_pos rfl⟩

theorem leads_iff_reads {source target : Nat} :
    Search.Leads (n.successors none) source target ↔ n.Reads source [] target := by
  constructor
  · intro leads
    induction leads with
    | refl => exact .done source
    | tail _ link ih => exact ih.append (.edge (mem_successors.mp link))
  · intro reads
    generalize same : [] = word at reads
    induction reads with
    | done => exact Relation.ReflTransGen.refl
    | silent edge _ ih => exact Relation.ReflTransGen.head (mem_successors.mpr edge) (ih same)
    | token => cases same

theorem mem_closure {states : Std.ExtTreeSet Nat} {target : Nat} :
    target ∈ n.closure states ↔ ∃ source ∈ states, n.Reads source [] target := by
  have outside : ∀ state, n.size ≤ state → n.successors none state = [] := by
    intro state beyond
    rw [successors, edges_outside beyond, List.filterMap_nil]
  have enough : ∑ state ∈ Finset.range n.size, (n.successors none state).length ≤ n.edgeCount := by
    calc
      _ ≤ ∑ state ∈ Finset.range n.size, (n.edges state).length :=
        Finset.sum_le_sum fun state _ => List.length_filterMap_le _ _
      _ = n.edgeCount := Search.sum_length_getD n.states
  rw [closure, Search.mem_reach _ _ outside enough]
  simp only [Std.ExtTreeSet.mem_toList, leads_iff_reads]

theorem mem_step {states : Std.ExtTreeSet Nat} {token : Token} {target : Nat} :
    target ∈ n.step states token ↔ ∃ source ∈ states, ⟨some token, target⟩ ∈ n.edges source := by
  rw [step, Std.ExtTreeSet.mem_ofList, List.contains_iff_mem, List.mem_flatMap]
  simp only [Std.ExtTreeSet.mem_toList, mem_successors]

theorem mem_outgoing {states : Std.ExtTreeSet Nat} {token : Token} :
    token ∈ n.outgoing states ↔
      ∃ source ∈ states, ∃ target, ⟨some token, target⟩ ∈ n.edges source := by
  rw [outgoing, Std.ExtTreeSet.mem_ofList, List.contains_iff_mem, List.mem_flatMap]
  simp only [Std.ExtTreeSet.mem_toList, List.mem_filterMap]
  constructor
  · intro given
    rcases given with ⟨source, present, ⟨label, target⟩, edge, rfl⟩
    exact ⟨source, present, target, edge⟩
  · intro given
    rcases given with ⟨source, present, target, edge⟩
    exact ⟨source, present, _, edge, rfl⟩

theorem mem_advance {states : Std.ExtTreeSet Nat} {token : Token} {target : Nat} :
    target ∈ n.advance states token ↔
      ∃ source ∈ states, ∃ middle, ⟨some token, middle⟩ ∈ n.edges source ∧
        n.Reads middle [] target := by
  rw [advance, mem_closure]
  constructor
  · intro given
    rcases given with ⟨middle, stepped, silent⟩
    obtain ⟨source, present, edge⟩ := mem_step.mp stepped
    exact ⟨source, present, middle, edge, silent⟩
  · intro given
    rcases given with ⟨source, present, middle, edge, silent⟩
    exact ⟨middle, mem_step.mpr ⟨source, present, edge⟩, silent⟩

/-- Reading nothing leads nowhere else. -/
def Closed (n : Nfa) (states : Std.ExtTreeSet Nat) : Prop :=
  ∀ source ∈ states, ∀ target, n.Reads source [] target → target ∈ states

theorem closed_closure (states : Std.ExtTreeSet Nat) : n.Closed (n.closure states) := by
  intro middle reached target silent
  obtain ⟨source, present, before⟩ := mem_closure.mp reached
  exact mem_closure.mpr ⟨source, present, before.append silent⟩

theorem closed_advance (states : Std.ExtTreeSet Nat) (token : Token) :
    n.Closed (n.advance states token) :=
  closed_closure _

theorem closed_initial : n.Closed n.initial :=
  closed_closure _

theorem mem_foldl_advance {states : Std.ExtTreeSet Nat} (closed : n.Closed states)
    (word : List Token) (target : Nat) :
    target ∈ word.foldl n.advance states ↔ ∃ source ∈ states, n.Reads source word target := by
  induction word generalizing states with
  | nil =>
      -- reading nothing leads out of the states only if they are not closed
      constructor
      · intro present
        exact ⟨target, present, .done target⟩
      · intro given
        rcases given with ⟨source, present, silent⟩
        exact closed source present target silent
  | cons token word ih =>
      rw [List.foldl_cons, ih (closed_advance states token)]
      constructor
      · intro given
        rcases given with ⟨middle, reached, rest⟩
        obtain ⟨source, present, after, edge, silent⟩ := mem_advance.mp reached
        exact ⟨source, present, .token edge (silent.append rest)⟩
      · intro given
        rcases given with ⟨source, present, reads⟩
        obtain ⟨before, after, silent, edge, rest⟩ := Reads.cons_iff.mp reads
        have known : before ∈ states := closed source present before silent
        exact ⟨after, mem_advance.mpr ⟨before, known, after, edge, .done after⟩, rest⟩

theorem mem_initial {target : Nat} : target ∈ n.initial ↔ n.Reads n.start [] target := by
  rw [initial, mem_closure]
  simp only [Std.ExtTreeSet.mem_ofList, List.contains_iff_mem, List.mem_singleton,
    exists_eq_left]

/-- The simulation is in exactly the states that the word can be read to. -/
theorem mem_run {word : List Token} {target : Nat} :
    target ∈ n.run word ↔ n.Reads n.start word target := by
  rw [run, mem_foldl_advance closed_initial]
  constructor
  · intro given
    rcases given with ⟨source, present, reads⟩
    exact (mem_initial.mp present).append reads
  · intro reads
    exact ⟨n.start, mem_initial.mpr (.done n.start), reads⟩

theorem closed_run (word : List Token) : n.Closed (n.run word) := by
  intro source reached target silent
  rw [mem_run] at reached ⊢
  have reads := reached.append silent
  rwa [List.append_nil] at reads

theorem accepts_iff_reads {word : List Token} :
    n.accepts word = true ↔ n.Reads n.start word n.accept := by
  rw [accepts, Std.ExtTreeSet.contains_iff_mem, mem_run]

end CallOrder.Nfa
