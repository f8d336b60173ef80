import CallOrder.Automaton.Fragment
import CallOrder.Proofs.Automaton.Part

/-! Fragments as parts of an automaton, and the words that they read from start to exit. -/

namespace CallOrder.Fragment

/-- The states from `first` up to `limit` are a part of the automaton by themselves, between the
start and the exit of the fragment, and what is read from the one to the other are the `words`. -/
structure Spans (part : Fragment) (n : Nfa) (first limit : Nat) (words : Language Token) :
    Prop extends n.Region first limit {part.start} {part.accept} where
  distinct : part.start ≠ part.accept
  start_free : ∀ state ∈ Set.Ico first limit, ∀ edge ∈ n.edges state, edge.target ≠ part.start
  accept_free : n.edges part.accept = []
  exact : n.wordsTo part.accept part.start = words

namespace Spans

variable {part left right : Fragment} {n larger : Nfa} {first middle limit : Nat}
  {words more : Language Token} {entries exits : Set Nat} {skip loop : Prop}

theorem start_mem (spans : part.Spans n first limit words) : part.start ∈ Set.Ico first limit :=
  spans.entry_mem rfl

theorem accept_mem (spans : part.Spans n first limit words) : part.accept ∈ Set.Ico first limit :=
  spans.exit_mem rfl

theorem reads_from (spans : part.Spans n first limit words) {state : Nat}
    (present : state ∈ Set.Ico first limit) : ∃ word, n.Reads part.start word state := by
  obtain ⟨_, rfl, reads⟩ := spans.reachable state present
  exact reads

theorem reads_to (spans : part.Spans n first limit words) {state : Nat}
    (present : state ∈ Set.Ico first limit) : ∃ word, n.Reads state word part.accept := by
  obtain ⟨_, rfl, reads⟩ := spans.productive state present
  exact reads

theorem frame (spans : part.Spans n first limit words) (grown : n.size ≤ larger.size)
    (same : ∀ state ∈ Set.Ico first limit, larger.edges state = n.edges state) :
    part.Spans larger first limit words := by
  have region := spans.toRegion.frame grown same
  refine ⟨region, spans.distinct, ?_, ?_, ?_⟩
  · intro state present
    rw [same state present]
    exact spans.start_free state present
  · rw [same _ spans.accept_mem]
    exact spans.accept_free
  · rw [← spans.exact]
    ext word
    exact ⟨Nfa.Reads.congr region.closed (fun state present => (same state present).symm)
      spans.start_mem, Nfa.Reads.congr spans.closed same spans.start_mem⟩

section Concat

variable (former : left.Spans n first middle words) (latter : right.Spans n middle limit more)
  (joined : larger.Joins n left.accept right.start)

include former latter joined

theorem concat_edge_cases {state : Nat} (present : state ∈ Set.Ico first limit) {edge : Nfa.Edge}
    (link : edge ∈ larger.edges state) :
    (state ∈ Set.Ico first middle ∧ edge ∈ n.edges state ∧ edge.target ∈ Set.Ico first middle) ∨
    (state ∈ Set.Ico middle limit ∧ edge ∈ n.edges state ∧ edge.target ∈ Set.Ico middle limit) ∨
    (state = left.accept ∧ edge = ⟨none, right.start⟩) := by
  rcases (joined.edges state edge).mp link with old | new
  · rcases Nat.lt_or_ge state middle with below | above
    · have here : state ∈ Set.Ico first middle := ⟨present.1, below⟩
      exact Or.inl ⟨here, old, former.closed state here edge old⟩
    · have here : state ∈ Set.Ico middle limit := ⟨above, present.2⟩
      exact Or.inr (Or.inl ⟨here, old, latter.closed state here edge old⟩)
  · exact Or.inr (Or.inr new)

theorem concat_region : larger.Region first limit {left.start} {right.accept} := by
  obtain ⟨startAbove, startBelow⟩ := former.start_mem
  obtain ⟨nextAbove, nextBelow⟩ := latter.start_mem
  obtain ⟨lastAbove, lastBelow⟩ := latter.accept_mem
  have lower : Set.Ico first middle ⊆ Set.Ico first limit :=
    Set.Ico_subset_Ico_right (by omega)
  have upper : Set.Ico middle limit ⊆ Set.Ico first limit :=
    Set.Ico_subset_Ico_left (by omega)
  refine ⟨joined.size ▸ latter.limit_le, ?_, ?_, ?_, ?_, ?_⟩
  · intro _ same
    rcases same with rfl
    exact lower former.start_mem
  · intro _ same
    rcases same with rfl
    exact upper latter.accept_mem
  · intro state present edge link
    rcases concat_edge_cases former latter joined present link with
      ⟨_, _, stays⟩ | ⟨_, _, stays⟩ | ⟨_, rfl⟩
    · exact lower stays
    · exact upper stays
    · exact upper latter.start_mem
  · intro state present
    refine ⟨left.start, rfl, ?_⟩
    rcases Nat.lt_or_ge state middle with below | above
    · obtain ⟨word, reads⟩ := former.reads_from ⟨present.1, below⟩
      exact ⟨word, reads.mono joined.kept⟩
    · obtain ⟨front, before⟩ := former.reads_from former.accept_mem
      obtain ⟨back, after⟩ := latter.reads_from ⟨above, present.2⟩
      exact ⟨_, joined.across before after⟩
  · intro state present
    refine ⟨right.accept, rfl, ?_⟩
    rcases Nat.lt_or_ge state middle with below | above
    · obtain ⟨front, before⟩ := former.reads_to ⟨present.1, below⟩
      obtain ⟨back, after⟩ := latter.reads_to latter.start_mem
      exact ⟨_, joined.across before after⟩
    · obtain ⟨word, reads⟩ := latter.reads_to ⟨above, present.2⟩
      exact ⟨word, reads.mono joined.kept⟩

/-- The label of a state of the former part is what is still to be read there and then all that the
latter part reads. -/
theorem concat_words_le : larger.wordsTo right.accept left.start ≤ words * more := by
  let label := Nfa.split middle (fun state => n.wordsTo left.accept state * more)
    (n.wordsTo right.accept)
  have inLeft : ∀ state ∈ Set.Ico first middle, label state = n.wordsTo left.accept state * more :=
    fun state present => Nfa.split_of_lt _ _ present.2
  have inRight : ∀ state ∈ Set.Ico middle limit, label state = n.wordsTo right.accept state :=
    fun state present => Nfa.split_of_le _ _ present.1
  have region := concat_region former latter joined
  rw [← former.exact, ← inLeft left.start former.start_mem]
  intro word reads
  refine Nfa.Reads.labelled region.closed ?_ ?_ (region.entry_mem rfl) reads
  · rw [inRight right.accept latter.accept_mem]
    exact .done right.accept
  · intro state present edge link rest member
    rcases concat_edge_cases former latter joined present link with
      ⟨here, old, stays⟩ | ⟨here, old, stays⟩ | ⟨rfl, rfl⟩
    · rw [inLeft edge.target stays] at member
      rw [inLeft state here]
      obtain ⟨front, inFront, back, inBack, rfl⟩ := Language.mem_mul.mp member
      rw [← List.append_assoc]
      exact Language.append_mem_mul ((Nfa.Reads.edge old).append inFront) inBack
    · rw [inRight edge.target stays] at member
      rw [inRight state here]
      exact (Nfa.Reads.edge old).append member
    · rw [inRight right.start latter.start_mem, latter.exact] at member
      rw [inLeft left.accept former.accept_mem]
      exact Language.append_mem_mul (n.nil_mem_wordsTo left.accept) member

theorem concat :
    (⟨left.start, right.accept⟩ : Fragment).Spans larger first limit (words * more) := by
  obtain ⟨startAbove, startBelow⟩ := former.start_mem
  obtain ⟨acceptAbove, acceptBelow⟩ := former.accept_mem
  obtain ⟨nextAbove, nextBelow⟩ := latter.start_mem
  obtain ⟨lastAbove, lastBelow⟩ := latter.accept_mem
  have region := concat_region former latter joined
  have apart : left.start ≠ right.accept := by omega
  refine ⟨region, apart, ?_, ?_, ?_⟩
  · intro state present edge link
    rcases concat_edge_cases former latter joined present link with
      ⟨here, old, _⟩ | ⟨_, _, low, _⟩ | ⟨_, rfl⟩
    · exact former.start_free state here edge old
    · exact (by omega : edge.target ≠ left.start)
    · exact (by omega : right.start ≠ left.start)
  · rw [joined.others right.accept (by omega)]
    exact latter.accept_free
  · apply le_antisymm (concat_words_le former latter joined)
    rw [← former.exact, ← latter.exact]
    intro word member
    obtain ⟨front, inFront, back, inBack, rfl⟩ := Language.mem_mul.mp member
    exact joined.across inFront inBack

end Concat

theorem ends (around : larger.Encloses n entries exits skip loop)
    (region : n.Region first n.size entries exits) (low : first ≤ n.size)
    (through : ∃ entry ∈ entries, ∃ exit ∈ exits, ∃ word, n.Reads entry word exit) :
    (⟨n.size, n.size + 1⟩ : Fragment).Spans larger first (n.size + 2)
      (larger.wordsTo (n.size + 1) n.size) := by
  obtain ⟨entry, isEntry, exit, isExit, word, reads⟩ := through
  have crossed : larger.Reads n.size word (n.size + 1) := around.across isEntry reads isExit
  have apart : n.size ≠ n.size + 1 := by omega
  exact ⟨around.region region low ⟨word, crossed⟩, apart,
    fun _ present _ link => around.start_free region present link, around.end_free region low, rfl⟩

theorem union_words_le (former : left.Spans n first middle words)
    (latter : right.Spans n middle n.size more)
    (around : larger.Encloses n {left.start, right.start} {left.accept, right.accept} False False)
    (region : n.Region first n.size {left.start, right.start} {left.accept, right.accept})
    (low : first ≤ n.size) : larger.wordsTo (n.size + 1) n.size ≤ words + more := by
  let label := Nfa.split middle (n.wordsTo left.accept) (n.wordsTo right.accept)
  have inLeft : ∀ state ∈ Set.Ico first middle, label state = n.wordsTo left.accept state :=
    fun state present => Nfa.split_of_lt _ _ present.2
  have inRight : ∀ state ∈ Set.Ico middle n.size, label state = n.wordsTo right.accept state :=
    fun state present => Nfa.split_of_le _ _ present.1
  refine around.labelled region low label ?_ ?_ False.elim ?_ False.elim
  · intro state present edge link rest member
    rcases Nat.lt_or_ge state middle with below | above
    · have here : state ∈ Set.Ico first middle := ⟨present.1, below⟩
      rw [inLeft _ (former.closed state here edge link)] at member
      rw [inLeft state here]
      exact (Nfa.Reads.edge link).append member
    · have here : state ∈ Set.Ico middle n.size := ⟨above, present.2⟩
      rw [inRight _ (latter.closed state here edge link)] at member
      rw [inRight state here]
      exact (Nfa.Reads.edge link).append member
  · intro exit given
    rcases given with rfl | rfl
    · rw [inLeft _ former.accept_mem]
      exact .done _
    · rw [inRight _ latter.accept_mem]
      exact .done _
  · intro entry given
    rcases given with rfl | rfl
    · rw [inLeft _ former.start_mem, former.exact]
      exact le_self_add
    · rw [inRight _ latter.start_mem, latter.exact]
      exact le_add_self

theorem union (former : left.Spans n first middle words)
    (latter : right.Spans n middle n.size more)
    (around : larger.Encloses n {left.start, right.start} {left.accept, right.accept} False False) :
    (⟨n.size, n.size + 1⟩ : Fragment).Spans larger first (n.size + 2) (words + more) := by
  obtain ⟨startAbove, startBelow⟩ := former.start_mem
  obtain ⟨nextAbove, nextBelow⟩ := latter.start_mem
  have region : n.Region first n.size {left.start, right.start} {left.accept, right.accept} :=
    former.toRegion.union latter.toRegion (by omega) (by omega)
  have low : first ≤ n.size := by omega
  obtain ⟨word, reads⟩ := former.reads_to former.start_mem
  have spans := ends around region low ⟨_, Or.inl rfl, _, Or.inl rfl, word, reads⟩
  have exact : larger.wordsTo (n.size + 1) n.size = words + more := by
    apply le_antisymm (union_words_le former latter around region low)
    rw [← former.exact, ← latter.exact]
    intro word given
    rcases given with member | member
    · exact around.across (Or.inl rfl) member (Or.inl rfl)
    · exact around.across (Or.inr rfl) member (Or.inr rfl)
  exact exact ▸ spans

theorem optional (inner : part.Spans n first n.size words)
    (around : larger.Encloses n {part.start} {part.accept} True False) :
    (⟨n.size, n.size + 1⟩ : Fragment).Spans larger first (n.size + 2) (words + 1) := by
  obtain ⟨startAbove, startBelow⟩ := inner.start_mem
  have low : first ≤ n.size := by omega
  obtain ⟨word, reads⟩ := inner.reads_to inner.start_mem
  have spans := ends around inner.toRegion low ⟨_, rfl, _, rfl, word, reads⟩
  have exact : larger.wordsTo (n.size + 1) n.size = words + 1 := by
    apply le_antisymm
    · refine around.labelled inner.toRegion low (n.wordsTo part.accept) ?_ ?_ False.elim ?_ ?_
      · intro state present edge link rest member
        exact (Nfa.Reads.edge link).append member
      · intro _ same
        rcases same with rfl
        exact .done part.accept
      · intro _ same
        rcases same with rfl
        rw [inner.exact]
        exact le_self_add
      · intro _
        exact Or.inr rfl
    · rw [← inner.exact]
      intro word given
      rcases given with member | nothing
      · exact around.across rfl member rfl
      · rw [(Language.mem_one word).mp nothing]
        exact around.pass trivial
  exact exact ▸ spans

theorem star_reads_on (inner : part.Spans n first n.size words)
    (around : larger.Encloses n {part.start} {part.accept} True True) (parts : List (List Token))
    (members : ∀ word ∈ parts, word ∈ words) :
    larger.Reads part.accept parts.flatten (n.size + 1) := by
  induction parts with
  | nil => exact around.leave rfl
  | cons word parts ih =>
      obtain ⟨member, members⟩ := List.forall_mem_cons.mp members
      rw [← inner.exact] at member
      have again := around.again trivial rfl rfl
      exact again.append ((member.mono around.kept).append (ih members))

open Computability in
theorem star_words_le (inner : part.Spans n first n.size words)
    (around : larger.Encloses n {part.start} {part.accept} True True) (low : first ≤ n.size) :
    larger.wordsTo (n.size + 1) n.size ≤ words∗ := by
  refine around.labelled inner.toRegion low (fun state => n.wordsTo part.accept state * words∗)
    ?_ ?_ ?_ ?_ ?_
  · intro state present edge link rest member
    obtain ⟨front, inFront, back, inBack, rfl⟩ := Language.mem_mul.mp member
    rw [← List.append_assoc]
    exact Language.append_mem_mul ((Nfa.Reads.edge link).append inFront) inBack
  · intro exit isExit
    rw [Set.mem_singleton_iff.mp isExit]
    exact Language.append_mem_mul (n.nil_mem_wordsTo part.accept) (Language.nil_mem_kstar words)
  · intro _ entry isEntry exit isExit word member
    rw [Set.mem_singleton_iff.mp isEntry, inner.exact] at member
    rw [Set.mem_singleton_iff.mp isExit]
    have again : words * words∗ ≤ words∗ := mul_kstar_le_kstar
    exact Language.append_mem_mul (n.nil_mem_wordsTo part.accept) (again member)
  · intro entry isEntry
    rw [Set.mem_singleton_iff.mp isEntry, inner.exact]
    exact mul_kstar_le_kstar
  · intro _
    exact Language.nil_mem_kstar words

open Computability in
theorem star (inner : part.Spans n first n.size words)
    (around : larger.Encloses n {part.start} {part.accept} True True) :
    (⟨n.size, n.size + 1⟩ : Fragment).Spans larger first (n.size + 2) words∗ := by
  obtain ⟨startAbove, startBelow⟩ := inner.start_mem
  have low : first ≤ n.size := by omega
  obtain ⟨word, reads⟩ := inner.reads_to inner.start_mem
  have spans := ends around inner.toRegion low ⟨_, rfl, _, rfl, word, reads⟩
  have exact : larger.wordsTo (n.size + 1) n.size = words∗ := by
    apply le_antisymm (star_words_le inner around low)
    intro whole repeated
    obtain ⟨parts, rfl, members⟩ := repeated
    cases parts with
    | nil => exact around.pass trivial
    | cons word parts =>
        obtain ⟨member, members⟩ := List.forall_mem_cons.mp members
        rw [← inner.exact] at member
        have onward := star_reads_on inner around parts members
        exact (around.enter rfl).append ((member.mono around.kept).append onward)
  exact exact ▸ spans

section Single

variable {label : Option Token} (size : larger.size = n.size + 2)
  (edges : ∀ state edge, edge ∈ larger.edges state ↔
    edge ∈ n.edges state ∨ state = n.size ∧ edge = ⟨label, n.size + 1⟩)

include edges

theorem single_edge_eq {state : Nat} (present : state ∈ Set.Ico n.size (n.size + 2))
    {edge : Nfa.Edge} (link : edge ∈ larger.edges state) :
    state = n.size ∧ edge = ⟨label, n.size + 1⟩ := by
  rcases (edges state edge).mp link with old | new
  · rw [Nfa.edges_outside present.1] at old
    cases old
  · exact new

theorem single_reads : larger.Reads n.size label.toList (n.size + 1) :=
  .edge ((edges _ ⟨label, n.size + 1⟩).mpr (Or.inr ⟨rfl, rfl⟩))

include size

theorem single_region : larger.Region n.size (n.size + 2) {n.size} {n.size + 1} := by
  have cases : ∀ state ∈ Set.Ico n.size (n.size + 2), state = n.size ∨ state = n.size + 1 := by
    intro state present
    have above := present.1
    have below := present.2
    omega
  refine ⟨size.ge, ?_, ?_, ?_, ?_, ?_⟩
  · intro _ same
    rcases same with rfl
    exact ⟨le_refl _, (by omega : n.size < n.size + 2)⟩
  · intro _ same
    rcases same with rfl
    exact ⟨Nat.le_succ _, Nat.lt_succ_self _⟩
  · intro state present edge link
    obtain ⟨_, rfl⟩ := single_edge_eq edges present link
    exact ⟨Nat.le_succ _, Nat.lt_succ_self _⟩
  · intro state present
    refine ⟨n.size, rfl, ?_⟩
    rcases cases state present with rfl | rfl
    · exact ⟨[], .done n.size⟩
    · exact ⟨_, single_reads edges⟩
  · intro state present
    refine ⟨n.size + 1, rfl, ?_⟩
    rcases cases state present with rfl | rfl
    · exact ⟨_, single_reads edges⟩
    · exact ⟨[], .done (n.size + 1)⟩

theorem single_words_le : larger.wordsTo (n.size + 1) n.size ≤ {label.toList} := by
  have first := Nfa.withEnds_first n.size (fun _ => 0) {label.toList}
  have last := Nfa.withEnds_last n.size (fun _ => 0) {label.toList}
  have region := single_region size edges
  rw [← first]
  intro word reads
  refine Nfa.Reads.labelled region.closed ?_ ?_ (region.entry_mem rfl) reads
  · rw [last]
    exact Language.nil_mem_one
  · intro state present edge link rest member
    obtain ⟨rfl, rfl⟩ := single_edge_eq edges present link
    rw [last, Language.mem_one] at member
    rw [first, member, List.append_nil]
    rfl

theorem single :
    (⟨n.size, n.size + 1⟩ : Fragment).Spans larger n.size (n.size + 2) {label.toList} := by
  have region := single_region size edges
  have apart : n.size ≠ n.size + 1 := by omega
  refine ⟨region, apart, ?_, ?_, ?_⟩
  · intro state present edge link
    obtain ⟨_, rfl⟩ := single_edge_eq edges present link
    exact apart.symm
  · rw [List.eq_nil_iff_forall_not_mem]
    intro edge link
    exact apart (single_edge_eq edges ⟨Nat.le_succ _, Nat.lt_succ_self _⟩ link).1.symm
  · apply le_antisymm (single_words_le size edges)
    intro _ same
    rcases same with rfl
    exact single_reads edges

end Single

end Spans

end CallOrder.Fragment
