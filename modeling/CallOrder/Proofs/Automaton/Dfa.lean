import CallOrder.Automaton.Dfa
import CallOrder.Proofs.Text.ByteOrder

/-! Runs of a deterministic automaton, and what a state says may come next. -/

namespace CallOrder.Dfa

variable {dfa : Dfa} {i : Nat} {state : State}

theorem run?_append (i : Nat) (front back : List Token) :
    dfa.run? i (front ++ back) = (dfa.run? i front).bind (dfa.run? · back) := by
  induction front generalizing i with
  | nil => rfl
  | cons token front ih =>
      rw [List.cons_append, run?, run?]
      cases dfa.next? i token with
      | none => rfl
      | some next => exact ih next

theorem run?_singleton (i : Nat) (token : Token) : dfa.run? i [token] = dfa.next? i token := by
  rw [run?]
  cases dfa.next? i token <;> rfl

theorem next?_eq (found : dfa.state? i = some state) (token : Token) :
    dfa.next? i token = state.transitions[token]? := by
  rw [next?, found, Option.bind_some]

/-- The list of the `tokens`, each once, and of an end mark where the calls may end, by bytes. -/
structure Offers (tokens : Set Token) (mayEnd : Prop) (list : List String) : Prop where
  sorted : Text.ByteSorted list
  entries : ∃ distinct : List Token, distinct.Nodup ∧ (∀ token, token ∈ distinct ↔ token ∈ tokens) ∧
    (mayEnd → list.Perm (endMark :: distinct)) ∧ (¬ mayEnd → list.Perm distinct)

namespace Offers

variable {tokens : Set Token} {mayEnd : Prop} {list other : List String}

theorem unique (first : Offers tokens mayEnd list) (second : Offers tokens mayEnd other) :
    list = other := by
  apply first.sorted.eq_of_perm second.sorted
  obtain ⟨these, nodup, members, open', closed⟩ := first.entries
  obtain ⟨those, nodupToo, membersToo, openToo, closedToo⟩ := second.entries
  have same : these.Perm those := by
    rw [List.perm_ext_iff_of_nodup nodup nodupToo]
    intro token
    rw [members, membersToo]
  by_cases ends : mayEnd
  · exact (open' ends).trans ((same.cons endMark).trans (openToo ends).symm)
  · exact (closed ends).trans (same.trans (closedToo ends).symm)

theorem mem_cases (offers : Offers tokens mayEnd list) {entry : String} (present : entry ∈ list) :
    entry = endMark ∧ mayEnd ∨ entry ∈ tokens := by
  obtain ⟨distinct, _, members, open', closed⟩ := offers.entries
  by_cases ends : mayEnd
  · rcases List.mem_cons.mp ((open' ends).mem_iff.mp present) with mark | listed
    · exact Or.inl ⟨mark, ends⟩
    · exact Or.inr ((members entry).mp listed)
  · exact Or.inr ((members entry).mp ((closed ends).mem_iff.mp present))

end Offers

theorem insertOrdered_perm (s : String) (list : List String) :
    (insertOrdered s list).Perm (s :: list) := by
  induction list with
  | nil => exact List.Perm.refl _
  | cons x list ih =>
      rw [insertOrdered]
      split
      · exact List.Perm.refl _
      · exact (ih.cons x).trans (List.Perm.swap s x list)

theorem insertOrdered_sorted (s : String) {list : List String} (sorted : list.Pairwise (· ≤ ·)) :
    (insertOrdered s list).Pairwise (· ≤ ·) := by
  induction list with
  | nil => exact List.pairwise_singleton _ s
  | cons x list ih =>
      obtain ⟨least, rest⟩ := List.pairwise_cons.mp sorted
      rw [insertOrdered]
      split
      case isTrue before =>
        refine List.pairwise_cons.mpr ⟨?_, sorted⟩
        intro y present
        rcases List.mem_cons.mp present with rfl | later
        · exact before
        · exact before.trans (least y later)
      case isFalse behind =>
        refine List.pairwise_cons.mpr ⟨?_, ih rest⟩
        intro y present
        rcases List.mem_cons.mp ((insertOrdered_perm s list).mem_iff.mp present) with rfl | later
        · exact le_of_not_ge behind
        · exact least y later

theorem keys_sorted (transitions : Std.ExtTreeMap Token Nat) :
    transitions.keys.Pairwise (· ≤ ·) :=
  transitions.ordered_keys.imp fun less => le_of_lt (compare_lt_iff_lt.mp less)

theorem expectedNext_offers (found : dfa.state? i = some state) :
    Offers {token | token ∈ state.transitions} (state.accepting = true) (dfa.expectedNext i) := by
  rw [expectedNext, found]
  dsimp only
  have keys : ∀ token, token ∈ state.transitions.keys ↔ token ∈ state.transitions :=
    fun _ => Std.ExtTreeMap.mem_keys
  split
  case isTrue accepting =>
    refine ⟨Text.byteSorted_iff.mpr (insertOrdered_sorted endMark (keys_sorted _)), ?_⟩
    exact ⟨_, Std.ExtTreeMap.nodup_keys, keys, fun _ => insertOrdered_perm _ _,
      fun rejecting => absurd accepting rejecting⟩
  case isFalse rejecting =>
    refine ⟨Text.byteSorted_iff.mpr (keys_sorted _), ?_⟩
    exact ⟨_, Std.ExtTreeMap.nodup_keys, keys, fun accepting => absurd accepting rejecting,
      fun _ => List.Perm.refl _⟩

end CallOrder.Dfa
