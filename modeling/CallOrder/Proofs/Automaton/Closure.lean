import CallOrder.Proofs.Automaton.Paths
import Mathlib.Order.Bounds.Defs

/-!
What can be reached without reading, found with a stack that grows while it is worked off. Main
statement: whatever steps have put the automaton together, the stack gets empty, and what has been
found by then is the least set that no edge leaves without reading.
-/

namespace CallOrder.Nfa

variable {n : Nfa} {states more found result : Std.ExtTreeSet Nat} {source target state : Nat}

theorem mem_insert : state ∈ states.insert target ↔ state = target ∨ state ∈ states := by
  rw [Std.ExtTreeSet.mem_insert, compare_eq_iff_eq, eq_comm]

theorem size_le_of_subset {few many : Std.ExtTreeSet Nat} (subset : ∀ state ∈ few, state ∈ many) :
    few.size ≤ many.size := by
  have whole : few ∪ many = many := by
    apply Std.ExtTreeSet.ext_mem
    intro state
    rw [Std.ExtTreeSet.mem_union_iff]
    exact ⟨fun either => either.elim (subset state) id, Or.inr⟩
  calc
    few.size ≤ (few ∪ many).size := Std.ExtTreeSet.size_left_le_size_union
    _ = many.size := by rw [whole]

theorem subset_closure (given : state ∈ states) : state ∈ n.closure states :=
  mem_closure.mpr ⟨state, given, .done state⟩

theorem mem_closure_of_edge (reached : source ∈ n.closure states)
    (edge : ⟨none, target⟩ ∈ n.edges source) : target ∈ n.closure states :=
  closed_closure states source reached target (.edge edge)

theorem closure_cases (reached : target ∈ n.closure states) :
    target ∈ states ∨ ∃ source ∈ n.closure states, ⟨none, target⟩ ∈ n.edges source := by
  obtain ⟨first, given, reads⟩ := mem_closure.mp reached
  cases leads_iff_reads.mpr reads with
  | refl => exact Or.inl given
  | tail before link =>
      exact Or.inr ⟨_, mem_closure.mpr ⟨first, given, leads_iff_reads.mp before⟩,
        mem_successors.mp link⟩

theorem closure_subset {set : Set Nat} (given : ∀ state ∈ states, state ∈ set)
    (closed : ∀ source ∈ set, ∀ target, ⟨none, target⟩ ∈ n.edges source → target ∈ set) :
    ∀ state ∈ n.closure states, state ∈ set := by
  intro state reached
  obtain ⟨first, present, reads⟩ := mem_closure.mp reached
  induction leads_iff_reads.mpr reads with
  | refl => exact given first present
  | tail before link ih =>
      have silent := leads_iff_reads.mp before
      have inside := ih (mem_closure.mpr ⟨first, present, silent⟩) silent
      exact closed _ inside _ (mem_successors.mp link)

theorem closure_mono (given : ∀ state ∈ states, state ∈ more) :
    ∀ state ∈ n.closure states, state ∈ n.closure more := by
  apply closure_subset
  · intro state present
    exact subset_closure (given state present)
  · intro source reached target edge
    exact mem_closure_of_edge reached edge

theorem closure_closure (states : Std.ExtTreeSet Nat) :
    n.closure (n.closure states) = n.closure states := by
  apply Std.ExtTreeSet.ext_mem
  intro state
  constructor
  · apply closure_subset
    · intro _ reached
      exact reached
    · intro source reached target edge
      exact mem_closure_of_edge reached edge
  · exact subset_closure

theorem closure_union (states more : Std.ExtTreeSet Nat) :
    n.closure (states ∪ more) = n.closure states ∪ n.closure more := by
  apply Std.ExtTreeSet.ext_mem
  intro state
  simp only [mem_closure, Std.ExtTreeSet.mem_union_iff, or_and_right, exists_or]

/-- A search with a stack: which states have been found, and which of them have not been looked at
yet, the latest first. -/
structure Spread where
  found : Std.ExtTreeSet Nat
  stack : List Nat

namespace Spread

def start (states : Std.ExtTreeSet Nat) : Spread := ⟨states, states.toList.reverse⟩

def follow (s : Spread) (edge : Edge) : Spread :=
  if edge.label = none ∧ edge.target ∉ s.found then
    ⟨s.found.insert edge.target, edge.target :: s.stack⟩
  else s

/-- So many passes empty the stack. Each takes one state off it and follows the edges of that. -/
inductive Ends (n : Nfa) : Spread → Nat → Std.ExtTreeSet Nat → Prop where
  | done (found : Std.ExtTreeSet Nat) : Ends n ⟨found, []⟩ 0 found
  | pass {found result : Std.ExtTreeSet Nat} {state passes : Nat} {stack : List Nat}
      (rest : Ends n ((n.edges state).foldl follow ⟨found, stack⟩) passes result) :
      Ends n ⟨found, state :: stack⟩ (passes + 1) result

variable {s middle t : Spread} {left : Nat} {stack : List Nat}

theorem Ends.unique {passes others : Nat} {other : Std.ExtTreeSet Nat}
    (first : Ends n s passes result) (second : Ends n s others other) :
    passes = others ∧ result = other := by
  induction first generalizing others with
  | done found =>
      cases second
      exact ⟨rfl, rfl⟩
  | pass _ ih =>
      cases second with
      | pass rest =>
          obtain ⟨rfl, rfl⟩ := ih rest
          exact ⟨rfl, rfl⟩

/-- What following edges changes: all that they lead to without reading is found, and what is new of
that lies on the stack, once. -/
structure Followed (edges : List Edge) (s t : Spread) : Prop where
  found : ∀ state, state ∈ t.found ↔ state ∈ s.found ∨ ⟨none, state⟩ ∈ edges
  stack : ∀ state, state ∈ t.stack ↔ state ∈ s.stack ∨ state ∈ t.found ∧ state ∉ s.found
  count : t.found.size + s.stack.length = s.found.size + t.stack.length

theorem followed_nil (s : Spread) : Followed [] s s :=
  ⟨by simp, by simp, rfl⟩

theorem followed_follow (s : Spread) (edge : Edge) : Followed [edge] s (s.follow edge) := by
  rcases edge with ⟨label, target⟩
  rw [follow]
  split
  case isTrue new =>
    obtain ⟨rfl, unknown⟩ := new
    have unknown : target ∉ s.found := unknown
    have grown : (s.found.insert target).size = s.found.size + 1 := by
      rw [Std.ExtTreeSet.size_insert, if_neg]
      exact fun known => unknown (Std.ExtTreeSet.contains_iff_mem.mp known)
    refine ⟨?_, ?_, ?_⟩
    · intro state
      simp only [mem_insert, List.mem_singleton, Edge.mk.injEq, true_and, or_comm]
    · intro state
      simp only [mem_insert, List.mem_cons]
      grind
    · show (s.found.insert target).size + s.stack.length = s.found.size + (s.stack.length + 1)
      omega
  case isFalse old =>
    have known : label = none → target ∈ s.found := by simpa using old
    refine ⟨?_, by simp, rfl⟩
    intro state
    rw [List.mem_singleton, Edge.mk.injEq]
    grind

theorem Followed.trans {front back : List Edge} (first : Followed front s middle)
    (second : Followed back middle t) : Followed (front ++ back) s t := by
  refine ⟨?_, ?_, ?_⟩
  · intro state
    rw [second.found, first.found, List.mem_append, or_assoc]
  · intro state
    rw [second.stack, first.stack, second.found, first.found]
    tauto
  · have before := first.count
    have behind := second.count
    omega

theorem followed_foldl (edges : List Edge) (s : Spread) :
    Followed edges s (edges.foldl follow s) := by
  induction edges generalizing s with
  | nil => exact followed_nil s
  | cons edge edges ih => exact (followed_follow s edge).trans (ih (s.follow edge))

/-- What holds before each pass of a search from `states`. There are as many passes left as there
are states on the stack and states to be found yet. -/
structure Underway (n : Nfa) (states : Std.ExtTreeSet Nat) (s : Spread) (left : Nat) : Prop where
  given : ∀ state ∈ states, state ∈ s.found
  reached : ∀ state ∈ s.found, state ∈ n.closure states
  known : ∀ state ∈ s.stack, state ∈ s.found
  covered : ∀ source ∈ s.found, source ∈ s.stack ∨
    ∀ target, ⟨none, target⟩ ∈ n.edges source → target ∈ s.found
  count : s.found.size + left = (n.closure states).size + s.stack.length

theorem underway_start (n : Nfa) (states : Std.ExtTreeSet Nat) :
    Underway n states (start states) (n.closure states).size where
  given _ present := present
  reached _ present := subset_closure present
  known state waits := by simpa [start] using waits
  covered source present := by
    apply Or.inl
    simpa [start] using present
  count := by
    rw [start, List.length_reverse, Std.ExtTreeSet.length_toList, Nat.add_comm]

theorem Underway.pass (underway : Underway n states ⟨found, state :: stack⟩ (left + 1)) :
    Underway n states ((n.edges state).foldl follow ⟨found, stack⟩) left := by
  have followed := followed_foldl (n.edges state) ⟨found, stack⟩
  generalize (n.edges state).foldl follow ⟨found, stack⟩ = after at followed
  have here : state ∈ found := underway.known state List.mem_cons_self
  have old : ∀ other ∈ found, other ∈ after.found :=
    fun other present => (followed.found other).mpr (Or.inl present)
  refine ⟨?_, ?_, ?_, ?_, ?_⟩
  · intro other present
    exact old other (underway.given other present)
  · intro other present
    rcases (followed.found other).mp present with known | edge
    · exact underway.reached other known
    · exact mem_closure_of_edge (underway.reached state here) edge
  · intro other waits
    rcases (followed.stack other).mp waits with waited | new
    · exact old other (underway.known other (List.mem_cons_of_mem _ waited))
    · exact new.1
  · intro source present
    by_cases known : source ∈ found
    · rcases underway.covered source known with waited | done
      · rcases List.mem_cons.mp waited with rfl | waits
        · exact Or.inr fun target edge => (followed.found target).mpr (Or.inr edge)
        · exact Or.inl ((followed.stack source).mpr (Or.inl waits))
      · exact Or.inr fun target edge => old target (done target edge)
    · exact Or.inl ((followed.stack source).mpr (Or.inr ⟨present, known⟩))
  · have before := underway.count
    have change := followed.count
    dsimp only [List.length_cons] at before change
    omega

theorem Underway.finished (underway : Underway n states ⟨found, []⟩ left) :
    found = n.closure states := by
  apply Std.ExtTreeSet.ext_mem
  intro state
  constructor
  · exact underway.reached state
  · apply closure_subset underway.given
    intro source present
    rcases underway.covered source present with waits | done
    · cases waits
    · exact done

theorem Underway.stack_le (underway : Underway n states s left) : s.stack.length ≤ left := by
  have few := size_le_of_subset underway.reached
  have count := underway.count
  omega

theorem Underway.ends (underway : Underway n states s left) : Ends n s left (n.closure states) := by
  induction left generalizing s with
  | zero =>
      have short := underway.stack_le
      rcases s with ⟨found, _ | ⟨state, stack⟩⟩
      · rw [← underway.finished]
        exact .done found
      · cases short
  | succ left ih =>
      rcases s with ⟨found, _ | ⟨state, stack⟩⟩
      · have count : found.size + (left + 1) = (n.closure states).size + 0 := underway.count
        rw [underway.finished] at count
        omega
      · exact .pass (ih underway.pass)

theorem ends_iff {passes : Nat} : Ends n (start states) passes result ↔
    passes = (n.closure states).size ∧ result = n.closure states := by
  have ends := (underway_start n states).ends
  constructor
  · intro other
    exact other.unique ends
  · intro given
    rcases given with ⟨rfl, rfl⟩
    exact ends

end Spread

/-- No edge that the steps drew leads out of the set without reading. -/
def Sealed (changes : List Change) (set : Set Nat) : Prop :=
  ∀ source ∈ set, ∀ target, Draws changes source none target → target ∈ set

/-- Whatever steps have put the automaton together and whatever numbers are given, the search ends
with the least sealed set around them. So a second search finds nothing more, a search from more
numbers finds no less, two sets may be searched together or apart, and each number that is added is
where a silent edge leads. -/
theorem closure_least (changes : List Change) (states : Std.ExtTreeSet Nat) :
    (∀ passes result, Spread.Ends (ofChanges changes) (.start states) passes result ↔
      passes = ((ofChanges changes).closure states).size ∧
        result = (ofChanges changes).closure states) ∧
    IsLeast {set : Set Nat | (∀ state ∈ states, state ∈ set) ∧ Sealed changes set}
      {state | state ∈ (ofChanges changes).closure states} ∧
    (ofChanges changes).closure ((ofChanges changes).closure states) =
      (ofChanges changes).closure states ∧
    (∀ more : Std.ExtTreeSet Nat, (∀ state ∈ states, state ∈ more) →
      ∀ state ∈ (ofChanges changes).closure states, state ∈ (ofChanges changes).closure more) ∧
    (∀ more, (ofChanges changes).closure (states ∪ more) =
      (ofChanges changes).closure states ∪ (ofChanges changes).closure more) ∧
    ∀ state ∈ (ofChanges changes).closure states, state ∉ states →
      ∃ source ∈ (ofChanges changes).closure states, Draws changes source none state := by
  refine ⟨fun _ _ => Spread.ends_iff, ⟨⟨fun _ => subset_closure, ?_⟩, ?_⟩,
    closure_closure states, fun _ => closure_mono, closure_union states, ?_⟩
  · intro source reached target drawn
    exact mem_closure_of_edge reached (mem_edges_ofChanges.mpr drawn)
  · intro set given
    apply closure_subset given.1
    intro source present target edge
    exact given.2 source present target (mem_edges_ofChanges.mp edge)
  · intro state reached added
    rcases closure_cases reached with present | ⟨source, before, edge⟩
    · exact absurd present added
    · exact ⟨source, before, mem_edges_ofChanges.mp edge⟩

def circling : List Change :=
  [.state, .state, .edge 0 none 1, .edge 0 none 1, .edge 1 none 0, .edge 1 none 7,
    .edge 0 (some "a") 5]

theorem circling_closed : ∃ given more result : Std.ExtTreeSet Nat,
    given = .ofList [0, 9] ∧ more = .ofList [0, 5, 9] ∧ result = .ofList [0, 1, 7, 9] ∧
    Spread.Ends (ofChanges circling) (.start given) 4 result ∧
    (∀ state ∈ given, state ∈ more) ∧
    (∀ state ∈ result, state ∈ (ofChanges circling).closure more) ∧
    7 ∈ result ∧ 7 ∉ given ∧ ∃ source ∈ result, Draws circling source none 7 := by
  have found : (ofChanges circling).closure (.ofList [0, 9]) = .ofList [0, 1, 7, 9] := by
    decide +kernel
  have fewer : ∀ state ∈ Std.ExtTreeSet.ofList [0, 9],
      state ∈ Std.ExtTreeSet.ofList [0, 5, 9] := by
    intro state present
    simp only [Std.ExtTreeSet.mem_ofList, List.contains_iff_mem] at present ⊢
    grind
  have member : 7 ∈ Std.ExtTreeSet.ofList [0, 1, 7, 9] := by decide +kernel
  have added : 7 ∉ Std.ExtTreeSet.ofList [0, 9] := by decide +kernel
  have count : (Std.ExtTreeSet.ofList [0, 1, 7, 9]).size = 4 := by decide +kernel
  obtain ⟨ends, _, _, grows, _, origin⟩ := closure_least circling (.ofList [0, 9])
  rw [found] at ends grows origin
  exact ⟨_, _, _, rfl, rfl, rfl, (ends 4 _).mpr ⟨count.symm, rfl⟩, fewer, grows _ fewer, member,
    added, origin 7 member added⟩

end CallOrder.Nfa
