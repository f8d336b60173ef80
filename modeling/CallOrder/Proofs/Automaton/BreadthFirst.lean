import CallOrder.Proofs.Automaton.Subset
import Mathlib.Data.Prod.Lex

/-! Breadth-first search: going through the transitions of a deterministic automaton state by state
and by increasing tokens, each state is met before any that has a greater number. -/

namespace CallOrder

abbrev Table := Nat → Token → Option Nat

namespace Table

def place (i : Nat) (token : Token) : Nat ×ₗ Token := toLex (i, token)

theorem place_lt_iff {i j : Nat} {token other : Token} :
    place i token < place j other ↔ i < j ∨ i = j ∧ token < other :=
  Prod.Lex.toLex_lt_toLex

/-- The first of the transitions that lead to `target`. -/
structure Finds (table : Table) (i : Nat) (token : Token) (target : Nat) : Prop where
  leads : table i token = some target
  first : ∀ j other, table j other = some target → place i token ≤ place j other

/-- The transitions lead to states below `size`. In their order, each of these but the first is met
from a lower one, and before any greater one. -/
structure BreadthFirst (table : Table) (size : Nat) : Prop where
  bounded : ∀ i token target, table i token = some target → target < size
  found : ∀ target, 0 < target → target < size → ∃ i < target, ∃ token, table.Finds i token target
  ordered : ∀ i token target, table i token = some target → ∀ lower, 0 < lower → lower < target →
    ∃ j other, table j other = some lower ∧ place j other < place i token

variable {table larger : Table} {size i j target : Nat} {token other : Token}

theorem Finds.unique (first : table.Finds i token target) (second : table.Finds j other target) :
    i = j ∧ token = other := by
  have same : place i token = place j other :=
    le_antisymm (first.first j other second.leads) (second.first i token first.leads)
  exact Prod.mk.inj (toLex.injective same)

theorem BreadthFirst.place_lt (search : table.BreadthFirst size) {lower : Nat}
    (first : table.Finds i token lower) (second : table.Finds j other target)
    (positive : 0 < lower) (below : lower < target) : place i token < place j other := by
  obtain ⟨k, middle, leads, earlier⟩ := search.ordered j other target second.leads lower positive
    below
  exact (first.first k middle leads).trans_lt earlier

/-- `larger` has one transition more than `table`, and that one is the last. -/
structure Extends (larger table : Table) (i : Nat) (token : Token) (target : Nat) : Prop where
  last : ∀ j other k, table j other = some k → place j other < place i token
  entries : ∀ j other k, larger j other = some k ↔
    table j other = some k ∨ (j = i ∧ other = token) ∧ k = target

theorem Extends.new (extended : larger.Extends table i token target) :
    larger i token = some target :=
  (extended.entries i token target).mpr (Or.inr ⟨⟨rfl, rfl⟩, rfl⟩)

theorem Extends.kept (extended : larger.Extends table i token target) {k : Nat}
    (leads : table j other = some k) : larger j other = some k :=
  (extended.entries j other k).mpr (Or.inl leads)

theorem Finds.extend {k : Nat} (finds : table.Finds j other k)
    (extended : larger.Extends table i token target) : larger.Finds j other k := by
  refine ⟨extended.kept finds.leads, ?_⟩
  intro j' other' leads
  rcases (extended.entries j' other' k).mp leads with earlier | ⟨⟨rfl, rfl⟩, _⟩
  · exact finds.first j' other' earlier
  · exact (extended.last j other k finds.leads).le

theorem finds_new (search : table.BreadthFirst size)
    (extended : larger.Extends table i token size) : larger.Finds i token size := by
  refine ⟨extended.new, ?_⟩
  intro j other leads
  rcases (extended.entries j other size).mp leads with earlier | ⟨⟨rfl, rfl⟩, _⟩
  · exact absurd (search.bounded j other size earlier) (lt_irrefl size)
  · exact le_refl _

theorem BreadthFirst.extend (search : table.BreadthFirst size) (here : i < size)
    (known : target ≤ size) (extended : larger.Extends table i token target) :
    larger.BreadthFirst (max size (target + 1)) := by
  constructor
  · intro j other k leads
    rcases (extended.entries j other k).mp leads with earlier | ⟨_, rfl⟩
    · have := search.bounded j other k earlier
      omega
    · omega
  · intro k positive below
    rcases Nat.lt_or_ge k size with old | new
    · obtain ⟨j, lower, other, finds⟩ := search.found k positive old
      exact ⟨j, lower, other, finds.extend extended⟩
    · obtain rfl : k = size := by omega
      obtain rfl : target = k := by omega
      exact ⟨i, here, token, finds_new search extended⟩
  · intro j other k leads lower positive below
    rcases (extended.entries j other k).mp leads with earlier | ⟨⟨rfl, rfl⟩, rfl⟩
    · obtain ⟨j', other', leads', before⟩ := search.ordered j other k earlier lower positive below
      exact ⟨j', other', extended.kept leads', before⟩
    · obtain ⟨j', _, other', finds⟩ := search.found lower positive (by omega)
      exact ⟨j', other', extended.kept finds.leads, extended.last j' other' lower finds.leads⟩

theorem BreadthFirst.congr (search : table.BreadthFirst size)
    (same : ∀ i token, larger i token = table i token) : larger.BreadthFirst size := by
  have equal : larger = table := funext₂ same
  rwa [equal]

def ofRows (rows : Array (Std.ExtTreeMap Token Nat)) : Table :=
  fun i token => rows[i]?.bind (·[token]?)

variable {rows : Array (Std.ExtTreeMap Token Nat)} {row : Std.ExtTreeMap Token Nat}

theorem ofRows_push (i : Nat) (token : Token) :
    ofRows (rows.push row) i token = if i = rows.size then row[token]? else ofRows rows i token := by
  rw [ofRows, ofRows, Array.getElem?_push]
  split <;> rfl

theorem ofRows_push_empty (i : Nat) (token : Token) :
    ofRows (rows.push ∅) i token = ofRows rows i token := by
  rw [ofRows_push]
  split
  · rename_i last
    simp [last, ofRows]
  · rfl

theorem extends_insert (fresh : ∀ known ∈ row, known < token) (target : Nat) :
    (ofRows (rows.push (row.insert token target))).Extends (ofRows (rows.push row)) rows.size token
      target := by
  constructor
  · intro j other k leads
    rw [ofRows_push] at leads
    rw [place_lt_iff]
    split at leads
    · rename_i last
      have known : other ∈ row := by
        rw [Std.ExtTreeMap.mem_iff_isSome_getElem?, leads, Option.isSome_some]
      exact Or.inr ⟨last, fresh other known⟩
    · left
      by_contra beyond
      rw [ofRows, Array.getElem?_eq_none (by omega)] at leads
      cases leads
  · intro j other k
    have absent : row[token]? = none := by
      apply Std.ExtTreeMap.getElem?_eq_none
      exact fun known => lt_irrefl token (fresh token known)
    rw [ofRows_push, ofRows_push]
    by_cases last : j = rows.size
    · by_cases same : token = other
      · subst same
        simp [last, absent, eq_comm]
      · have differs : ¬ other = token := fun equal => same equal.symm
        simp [last, Std.ExtTreeMap.getElem?_insert, same, differs]
    · simp [last]

end Table

namespace Discovery

variable {limits : Limits} {n : Nfa} {set : Std.ExtTreeSet Nat} {tokens : List Token}
  {row row' : Std.ExtTreeMap Token Nat} {d d' : Discovery}
  {rows rows' : Array (Std.ExtTreeMap Token Nat)}

theorem number_le {i : Nat} (numbered : d.Numbered) (done : d.number limits set = .ok (i, d')) :
    i ≤ d.sets.size ∧ d'.sets.size = max d.sets.size (i + 1) := by
  obtain ⟨numbered', there, rfl | ⟨_, sets⟩⟩ := number_ok done numbered
  · have below : i < d'.sets.size := (Array.getElem?_eq_some_iff.mp there).1
    omega
  · have last : d'.sets[d.sets.size]? = some set := by
      rw [sets]
      simp
    obtain rfl := numbered'.distinct there last
    rw [sets, Array.size_push]
    omega

theorem transitions_breadthFirst (numbered : d.Numbered) (here : rows.size < d.sets.size)
    (search : (Table.ofRows (rows.push row)).BreadthFirst d.sets.size)
    (increasing : tokens.Pairwise (· < ·)) (fresh : ∀ known ∈ row, ∀ token ∈ tokens, known < token)
    (done : d.transitions limits n set tokens row = .ok (row', d')) :
    d'.Numbered ∧ d.sets.size ≤ d'.sets.size ∧
      (Table.ofRows (rows.push row')).BreadthFirst d'.sets.size := by
  induction tokens generalizing d row with
  | nil =>
      cases done
      exact ⟨numbered, le_refl _, search⟩
  | cons token tokens ih =>
      obtain ⟨least, later⟩ := List.pairwise_cons.mp increasing
      rw [transitions] at done
      by_cases nowhere : (n.advance set token).isEmpty = true
      · rw [if_pos nowhere] at done
        have still : ∀ known ∈ row, ∀ other ∈ tokens, known < other :=
          fun known member other among => fresh known member other (List.mem_cons_of_mem _ among)
        exact ih numbered here search later still done
      · rw [if_neg nowhere] at done
        obtain ⟨⟨i, middle⟩, number, rest⟩ := bind_eq_ok done
        obtain ⟨known, size⟩ := number_le numbered number
        have numberedToo := (number_ok number numbered).1
        -- tokens are dealt with in increasing order, so the new transition is the last
        have extended : (Table.ofRows (rows.push (row.insert token i))).Extends
            (Table.ofRows (rows.push row)) rows.size token i :=
          Table.extends_insert (fun known member => fresh known member token (by simp)) i
        have searchToo := search.extend here known extended
        rw [← size] at searchToo
        have still : ∀ known ∈ row.insert token i, ∀ other ∈ tokens, known < other := by
          intro known member other among
          rcases Std.ExtTreeMap.mem_insert.mp member with same | old
          · rw [← Std.LawfulEqOrd.eq_of_compare same]
            exact least other among
          · exact fresh known old other (List.mem_cons_of_mem _ among)
        obtain ⟨numberedLast, grown, searchLast⟩ :=
          ih numberedToo (by omega) searchToo later still rest
        exact ⟨numberedLast, by omega, searchLast⟩

theorem explore_breadthFirst {steps : Nat} (numbered : d.Numbered)
    (rows_le : rows.size ≤ d.sets.size)
    (search : (Table.ofRows rows).BreadthFirst d.sets.size)
    (done : d.explore limits n steps rows = .ok (d', rows')) :
    rows'.size ≤ d'.sets.size ∧ (Table.ofRows rows').BreadthFirst d'.sets.size := by
  induction steps generalizing d rows with
  | zero =>
      cases done
      exact ⟨rows_le, search⟩
  | succ steps ih =>
      rw [explore] at done
      split at done
      · cases done
        exact ⟨rows_le, search⟩
      · rename_i set next
        have here : rows.size < d.sets.size := (Array.getElem?_eq_some_iff.mp next).1
        obtain ⟨⟨row, middle⟩, filled, rest⟩ := bind_eq_ok done
        have increasing : (n.outgoing set).toList.Pairwise (· < ·) :=
          (n.outgoing set).ordered_toList.imp fun less => compare_lt_iff_lt.mp less
        have begun : (Table.ofRows (rows.push ∅)).BreadthFirst d.sets.size :=
          search.congr Table.ofRows_push_empty
        obtain ⟨numberedToo, grown, searchToo⟩ :=
          transitions_breadthFirst numbered here begun increasing (by simp) filled
        exact ih numberedToo (by rw [Array.size_push]; omega) searchToo rest

end Discovery

theorem Nfa.determinize_breadthFirst {n : Nfa} {limits : Limits} {bases : Std.ExtTreeSet Base}
    {dfa : Dfa} (done : n.determinize limits bases = .ok dfa) :
    Table.BreadthFirst dfa.next? dfa.size := by
  obtain ⟨⟨start, first⟩, number, rest⟩ := bind_eq_ok done
  obtain ⟨⟨d, rows⟩, explored, rest⟩ := bind_eq_ok rest
  cases rest
  have numbered := (Discovery.number_ok number Discovery.numbered_empty).1
  have single : first.sets.size = 1 := by
    obtain ⟨low, size⟩ := Discovery.number_le Discovery.numbered_empty number
    simp only [Discovery.empty, List.size_toArray, List.length_nil] at low size
    omega
  have beginning : (Table.ofRows #[]).BreadthFirst first.sets.size := by
    rw [single]
    exact ⟨by simp [Table.ofRows], by omega, by simp [Table.ofRows]⟩
  obtain ⟨rows_le, search⟩ :=
    Discovery.explore_breadthFirst numbered (Nat.zero_le _) beginning explored
  have size : (d.sets.mapIdx fun i set =>
      (⟨i, set, set.contains n.accept, rows.getD i ∅⟩ : Dfa.State)).size = d.sets.size :=
    Array.size_mapIdx
  rw [Dfa.size, size]
  apply search.congr
  intro i token
  rw [Dfa.next?, Dfa.state?, Array.getElem?_mapIdx, Table.ofRows]
  rcases Nat.lt_or_ge i d.sets.size with known | unknown
  · rw [Array.getElem?_eq_getElem known, Array.getD_eq_getD_getElem?]
    cases rows[i]? <;> simp
  · rw [Array.getElem?_eq_none unknown, Array.getElem?_eq_none (by omega)]
    rfl

end CallOrder
