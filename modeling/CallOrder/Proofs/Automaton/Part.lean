import CallOrder.Proofs.Automaton.Reading

/-! Regions of an automaton that nothing leaves and that hang together, and what becomes of them
when edges and states are added around them. -/

namespace CallOrder.Nfa

/-- States have only been added, and those below `first` have the edges that they had. -/
structure Extends (after before : Nfa) (first : Nat) : Prop where
  size_le : before.size ≤ after.size
  edges_eq : ∀ state < first, after.edges state = before.edges state

namespace Extends

variable {n middle after : Nfa} {first lower : Nat}

theorem trans (second : after.Extends middle first) (initial : middle.Extends n first) :
    after.Extends n first :=
  ⟨initial.size_le.trans second.size_le, fun state below =>
    (second.edges_eq state below).trans (initial.edges_eq state below)⟩

theorem anti (extends' : after.Extends n first) (low : lower ≤ first) : after.Extends n lower :=
  ⟨extends'.size_le, fun state below => extends'.edges_eq state (by omega)⟩

end Extends

/-- No edge leaves the states from `first` up to `limit`, an entry leads to each of them, and each
of them leads to an exit. -/
structure Region (n : Nfa) (first limit : Nat) (entries exits : Set Nat) : Prop where
  limit_le : limit ≤ n.size
  entry_mem : entries ⊆ Set.Ico first limit
  exit_mem : exits ⊆ Set.Ico first limit
  closed : ∀ state ∈ Set.Ico first limit, ∀ edge ∈ n.edges state,
    edge.target ∈ Set.Ico first limit
  reachable : ∀ state ∈ Set.Ico first limit, ∃ entry ∈ entries, ∃ word, n.Reads entry word state
  productive : ∀ state ∈ Set.Ico first limit, ∃ exit ∈ exits, ∃ word, n.Reads state word exit

namespace Region

variable {n larger : Nfa} {first middle limit : Nat} {entries exits entries' exits' : Set Nat}

theorem frame (region : n.Region first limit entries exits) (grown : n.size ≤ larger.size)
    (same : ∀ state ∈ Set.Ico first limit, larger.edges state = n.edges state) :
    larger.Region first limit entries exits := by
  refine ⟨region.limit_le.trans grown, region.entry_mem, region.exit_mem, ?_, ?_, ?_⟩
  · intro state present
    rw [same state present]
    exact region.closed state present
  · intro state present
    obtain ⟨entry, isEntry, word, reads⟩ := region.reachable state present
    exact ⟨entry, isEntry, word, reads.congr region.closed same (region.entry_mem isEntry)⟩
  · intro state present
    obtain ⟨exit, isExit, word, reads⟩ := region.productive state present
    exact ⟨exit, isExit, word, reads.congr region.closed same present⟩

theorem union (left : n.Region first middle entries exits)
    (right : n.Region middle limit entries' exits') (low : first ≤ middle) (high : middle ≤ limit) :
    n.Region first limit (entries ∪ entries') (exits ∪ exits') := by
  have lower : Set.Ico first middle ⊆ Set.Ico first limit := Set.Ico_subset_Ico_right high
  have upper : Set.Ico middle limit ⊆ Set.Ico first limit := Set.Ico_subset_Ico_left low
  refine ⟨right.limit_le,
    Set.union_subset (left.entry_mem.trans lower) (right.entry_mem.trans upper),
    Set.union_subset (left.exit_mem.trans lower) (right.exit_mem.trans upper), ?_, ?_, ?_⟩ <;>
    intro state present <;>
    rcases Nat.lt_or_ge state middle with below | above
  · exact fun edge link => lower (left.closed state ⟨present.1, below⟩ edge link)
  · exact fun edge link => upper (right.closed state ⟨above, present.2⟩ edge link)
  · obtain ⟨entry, isEntry, reads⟩ := left.reachable state ⟨present.1, below⟩
    exact ⟨entry, Or.inl isEntry, reads⟩
  · obtain ⟨entry, isEntry, reads⟩ := right.reachable state ⟨above, present.2⟩
    exact ⟨entry, Or.inr isEntry, reads⟩
  · obtain ⟨exit, isExit, reads⟩ := left.productive state ⟨present.1, below⟩
    exact ⟨exit, Or.inl isExit, reads⟩
  · obtain ⟨exit, isExit, reads⟩ := right.productive state ⟨above, present.2⟩
    exact ⟨exit, Or.inr isExit, reads⟩

end Region

def split (middle : Nat) (below above : Nat → Language Token) (state : Nat) : Language Token :=
  if state < middle then below state else above state

theorem split_of_lt {middle state : Nat} (below above : Nat → Language Token)
    (low : state < middle) : split middle below above state = below state :=
  if_pos low

theorem split_of_le {middle state : Nat} (below above : Nat → Language Token)
    (high : middle ≤ state) : split middle below above state = above state :=
  if_neg (Nat.not_lt.mpr high)

/-- The labels of the states below `size`, with a state behind them that is labelled with `words`
and states behind that one that have come to the end. -/
def withEnds (size : Nat) (label : Nat → Language Token) (words : Language Token) :
    Nat → Language Token :=
  split size label (split (size + 1) (fun _ => words) fun _ => 1)

theorem withEnds_first (size : Nat) (label : Nat → Language Token) (words : Language Token) :
    withEnds size label words size = words :=
  (split_of_le _ _ (le_refl size)).trans (split_of_lt _ _ (Nat.lt_succ_self size))

theorem withEnds_last (size : Nat) (label : Nat → Language Token) (words : Language Token) :
    withEnds size label words (size + 1) = 1 :=
  (split_of_le _ _ (Nat.le_succ size)).trans (split_of_le _ _ (le_refl (size + 1)))

/-- `larger` has two states more than `n`: one that leads to all entries and one that all exits lead
to, without reading. There may be an edge from the one to the other (`skip`) and from all exits to
all entries (`loop`). -/
structure Encloses (larger n : Nfa) (entries exits : Set Nat) (skip loop : Prop) : Prop where
  size : larger.size = n.size + 2
  others : ∀ state < n.size, state ∉ exits → larger.edges state = n.edges state
  edges : ∀ state edge, edge ∈ larger.edges state ↔
    edge ∈ n.edges state ∨
    (state = n.size ∧ edge.label = none ∧
      (edge.target ∈ entries ∨ skip ∧ edge.target = n.size + 1)) ∨
    (state ∈ exits ∧ edge.label = none ∧
      (edge.target = n.size + 1 ∨ loop ∧ edge.target ∈ entries))

namespace Encloses

variable {n larger : Nfa} {first : Nat} {entries exits : Set Nat} {skip loop : Prop}

theorem extends_below (around : larger.Encloses n entries exits skip loop) (low : first ≤ n.size)
    (above : ∀ exit ∈ exits, first ≤ exit) : larger.Extends n first := by
  refine ⟨by rw [around.size]; omega, ?_⟩
  intro state below
  apply around.others state (by omega)
  intro isExit
  have := above state isExit
  omega

theorem kept (around : larger.Encloses n entries exits skip loop) :
    ∀ state, ∀ edge ∈ n.edges state, edge ∈ larger.edges state :=
  fun state edge present => (around.edges state edge).mpr (Or.inl present)

theorem enter (around : larger.Encloses n entries exits skip loop) {entry : Nat}
    (isEntry : entry ∈ entries) : larger.Reads n.size [] entry :=
  .edge ((around.edges n.size ⟨none, entry⟩).mpr (Or.inr (Or.inl ⟨rfl, rfl, Or.inl isEntry⟩)))

theorem leave (around : larger.Encloses n entries exits skip loop) {exit : Nat}
    (isExit : exit ∈ exits) : larger.Reads exit [] (n.size + 1) :=
  .edge ((around.edges exit ⟨none, n.size + 1⟩).mpr (Or.inr (Or.inr ⟨isExit, rfl, Or.inl rfl⟩)))

theorem pass (around : larger.Encloses n entries exits skip loop) (skips : skip) :
    larger.Reads n.size [] (n.size + 1) :=
  .edge ((around.edges n.size ⟨none, n.size + 1⟩).mpr
    (Or.inr (Or.inl ⟨rfl, rfl, Or.inr ⟨skips, rfl⟩⟩)))

theorem again (around : larger.Encloses n entries exits skip loop) (loops : loop) {entry exit : Nat}
    (isEntry : entry ∈ entries) (isExit : exit ∈ exits) : larger.Reads exit [] entry :=
  .edge ((around.edges exit ⟨none, entry⟩).mpr
    (Or.inr (Or.inr ⟨isExit, rfl, Or.inr ⟨loops, isEntry⟩⟩)))

theorem across (around : larger.Encloses n entries exits skip loop) {entry exit : Nat}
    {word : List Token} (isEntry : entry ∈ entries) (reads : n.Reads entry word exit)
    (isExit : exit ∈ exits) : larger.Reads n.size word (n.size + 1) := by
  have inner := (reads.mono around.kept).append (around.leave isExit)
  rw [List.append_nil] at inner
  exact (around.enter isEntry).append inner

theorem edge_cases (around : larger.Encloses n entries exits skip loop)
    (region : n.Region first n.size entries exits) {state : Nat}
    (present : state ∈ Set.Ico first (n.size + 2)) {edge : Edge}
    (link : edge ∈ larger.edges state) :
    (state ∈ Set.Ico first n.size ∧ edge ∈ n.edges state ∧ edge.target ∈ Set.Ico first n.size) ∨
    (state = n.size ∧ edge.label = none ∧ edge.target ∈ entries) ∨
    (state = n.size ∧ edge.label = none ∧ skip ∧ edge.target = n.size + 1) ∨
    (state ∈ exits ∧ edge.label = none ∧ edge.target = n.size + 1) ∨
    (state ∈ exits ∧ edge.label = none ∧ loop ∧ edge.target ∈ entries) := by
  rcases (around.edges state edge).mp link with
    old | ⟨here, silent, target⟩ | ⟨here, silent, target⟩
  · have below : state < n.size := by
      by_contra beyond
      rw [edges_outside (by omega)] at old
      cases old
    exact Or.inl ⟨⟨present.1, below⟩, old, region.closed state ⟨present.1, below⟩ edge old⟩
  · rcases target with isEntry | skips
    · exact Or.inr (Or.inl ⟨here, silent, isEntry⟩)
    · exact Or.inr (Or.inr (Or.inl ⟨here, silent, skips⟩))
  · rcases target with isEnd | loops
    · exact Or.inr (Or.inr (Or.inr (Or.inl ⟨here, silent, isEnd⟩)))
    · exact Or.inr (Or.inr (Or.inr (Or.inr ⟨here, silent, loops⟩)))

theorem closed (around : larger.Encloses n entries exits skip loop)
    (region : n.Region first n.size entries exits) (low : first ≤ n.size) :
    ∀ state ∈ Set.Ico first (n.size + 2), ∀ edge ∈ larger.edges state,
      edge.target ∈ Set.Ico first (n.size + 2) := by
  have wider : Set.Ico first n.size ⊆ Set.Ico first (n.size + 2) :=
    Set.Ico_subset_Ico_right (by omega)
  have last : n.size + 1 ∈ Set.Ico first (n.size + 2) := ⟨by omega, by omega⟩
  intro state present edge link
  rcases around.edge_cases region present link with
    ⟨_, _, stays⟩ | ⟨_, _, isEntry⟩ | ⟨_, _, _, isEnd⟩ | ⟨_, _, isEnd⟩ | ⟨_, _, _, isEntry⟩
  · exact wider stays
  · exact wider (region.entry_mem isEntry)
  · rw [isEnd]
    exact last
  · rw [isEnd]
    exact last
  · exact wider (region.entry_mem isEntry)

theorem region (around : larger.Encloses n entries exits skip loop)
    (region : n.Region first n.size entries exits) (low : first ≤ n.size)
    (crossed : ∃ word, larger.Reads n.size word (n.size + 1)) :
    larger.Region first (n.size + 2) {n.size} {n.size + 1} := by
  have cases : ∀ state ∈ Set.Ico first (n.size + 2),
      state ∈ Set.Ico first n.size ∨ state = n.size ∨ state = n.size + 1 := by
    intro state present
    rcases Nat.lt_or_ge state n.size with below | above
    · exact Or.inl ⟨present.1, below⟩
    · have high := present.2
      exact Or.inr (by omega)
  refine ⟨around.size.ge, ?_, ?_, around.closed region low, ?_, ?_⟩
  · intro _ same
    rcases same with rfl
    exact ⟨low, (by omega : n.size < n.size + 2)⟩
  · intro _ same
    rcases same with rfl
    exact ⟨(by omega : first ≤ n.size + 1), (by omega : n.size + 1 < n.size + 2)⟩
  · intro state present
    refine ⟨n.size, rfl, ?_⟩
    rcases cases state present with inside | rfl | rfl
    · obtain ⟨entry, isEntry, word, reads⟩ := region.reachable state inside
      exact ⟨_, (around.enter isEntry).append (reads.mono around.kept)⟩
    · exact ⟨[], .done n.size⟩
    · exact crossed
  · intro state present
    refine ⟨n.size + 1, rfl, ?_⟩
    rcases cases state present with inside | rfl | rfl
    · obtain ⟨exit, isExit, word, reads⟩ := region.productive state inside
      exact ⟨_, (reads.mono around.kept).append (around.leave isExit)⟩
    · exact crossed
    · exact ⟨[], .done (n.size + 1)⟩

theorem start_free (around : larger.Encloses n entries exits skip loop)
    (region : n.Region first n.size entries exits) {state : Nat}
    (present : state ∈ Set.Ico first (n.size + 2)) {edge : Edge}
    (link : edge ∈ larger.edges state) :
    edge.target ≠ n.size := by
  rcases around.edge_cases region present link with
    ⟨_, _, _, stays⟩ | ⟨_, _, isEntry⟩ | ⟨_, _, _, isEnd⟩ | ⟨_, _, isEnd⟩ | ⟨_, _, _, isEntry⟩
  · exact Nat.ne_of_lt stays
  · exact Nat.ne_of_lt (region.entry_mem isEntry).2
  · omega
  · omega
  · exact Nat.ne_of_lt (region.entry_mem isEntry).2

theorem end_free (around : larger.Encloses n entries exits skip loop)
    (region : n.Region first n.size entries exits) (low : first ≤ n.size) :
    larger.edges (n.size + 1) = [] := by
  rw [List.eq_nil_iff_forall_not_mem]
  intro edge link
  have present : n.size + 1 ∈ Set.Ico first (n.size + 2) := ⟨by omega, by omega⟩
  have inside : n.size + 1 ∉ exits := fun isExit => by
    have below := (region.exit_mem isExit).2
    omega
  rcases around.edge_cases region present link with
    ⟨⟨_, below⟩, _⟩ | ⟨same, _⟩ | ⟨same, _⟩ | ⟨isExit, _⟩ | ⟨isExit, _⟩
  · omega
  · omega
  · omega
  · exact inside isExit
  · exact inside isExit

/-- Labels of an enclosed region that its own edges and the loop respect, and that end at the exits,
hold what can be read from one end to the other. -/
theorem labelled (around : larger.Encloses n entries exits skip loop)
    (region : n.Region first n.size entries exits) (low : first ≤ n.size)
    (label : Nat → Language Token) {words : Language Token}
    (respects : ∀ state ∈ Set.Ico first n.size, ∀ edge ∈ n.edges state, ∀ word ∈ label edge.target,
      edge.label.toList ++ word ∈ label state)
    (ends : ∀ exit ∈ exits, [] ∈ label exit)
    (loops : loop → ∀ entry ∈ entries, ∀ exit ∈ exits, label entry ≤ label exit)
    (enters : ∀ entry ∈ entries, label entry ≤ words) (skips : skip → [] ∈ words) :
    larger.wordsTo (n.size + 1) n.size ≤ words := by
  -- the first end is labelled with all words and the last one with the empty word
  have inner : ∀ state ∈ Set.Ico first n.size, withEnds n.size label words state = label state :=
    fun state present => split_of_lt _ _ present.2
  have outer := withEnds_first n.size label words
  have last := withEnds_last n.size label words
  intro word reads
  rw [← outer]
  refine Reads.labelled (around.closed region low) ?_ ?_ ⟨low, by omega⟩ reads
  · rw [last]
    exact Language.nil_mem_one
  · intro state present edge link rest member
    rcases around.edge_cases region present link with
      ⟨inside, old, stays⟩ | ⟨rfl, silent, isEntry⟩ | ⟨rfl, silent, skipped, isEnd⟩ |
      ⟨isExit, silent, isEnd⟩ | ⟨isExit, silent, looped, isEntry⟩
    · rw [inner _ stays] at member
      rw [inner _ inside]
      exact respects state inside edge old rest member
    · rw [inner _ (region.entry_mem isEntry)] at member
      rw [outer, silent]
      exact enters edge.target isEntry member
    · rw [isEnd, last, Language.mem_one] at member
      rw [outer, silent, member]
      exact skips skipped
    · rw [isEnd, last, Language.mem_one] at member
      rw [inner _ (region.exit_mem isExit), silent, member]
      exact ends state isExit
    · rw [inner _ (region.entry_mem isEntry)] at member
      rw [inner _ (region.exit_mem isExit), silent]
      exact loops looped edge.target isEntry state isExit member

end Encloses

/-- `larger` has one edge more than `n`, which leads from `exit` to `entry` without reading. -/
structure Joins (larger n : Nfa) (exit entry : Nat) : Prop where
  size : larger.size = n.size
  others : ∀ state, state ≠ exit → larger.edges state = n.edges state
  edges : ∀ state edge, edge ∈ larger.edges state ↔
    edge ∈ n.edges state ∨ state = exit ∧ edge = ⟨none, entry⟩

namespace Joins

variable {n larger : Nfa} {exit entry : Nat}

theorem kept (joined : larger.Joins n exit entry) :
    ∀ state, ∀ edge ∈ n.edges state, edge ∈ larger.edges state :=
  fun state edge present => (joined.edges state edge).mpr (Or.inl present)

theorem across (joined : larger.Joins n exit entry) {source target : Nat} {front back : List Token}
    (before : n.Reads source front exit) (after : n.Reads entry back target) :
    larger.Reads source (front ++ back) target := by
  have bridge : larger.Reads exit [] entry :=
    .edge ((joined.edges exit ⟨none, entry⟩).mpr (Or.inr ⟨rfl, rfl⟩))
  exact (before.mono joined.kept).append (bridge.append (after.mono joined.kept))

end Joins

end CallOrder.Nfa
