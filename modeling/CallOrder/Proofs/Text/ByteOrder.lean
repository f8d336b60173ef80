import Mathlib.Data.List.Lex
import Mathlib.Data.String.Basic

/-! Texts are ordered as their bytes are. -/

namespace CallOrder.Text

def bytes (s : String) : List UInt8 := s.toByteArray.data.toList

theorem bytes_eq_flatMap (s : String) : bytes s = s.toList.flatMap String.utf8EncodeChar := by
  rw [bytes, ← String.utf8Encode_toList, List.utf8Encode, List.toList_data_toByteArray]

theorem cons_lt_of_le {a b : Nat} {front back : List UInt8} (bound : b < 256) (le : a ≤ b)
    (rest : a = b → front < back) : UInt8.ofNat a :: front < UInt8.ofNat b :: back := by
  rw [List.cons_lt_cons_iff]
  rcases Nat.lt_or_eq_of_le le with less | same
  · left
    rw [UInt8.lt_iff_toNat_lt, UInt8.toNat_ofNat', UInt8.toNat_ofNat']
    omega
  · exact Or.inr ⟨congrArg UInt8.ofNat same, rest same⟩

theorem encode_append_lt {c d : Char} (less : c < d) (front back : List UInt8) :
    String.utf8EncodeChar c ++ front < String.utf8EncodeChar d ++ back := by
  have values : c.val.toNat < d.val.toNat := less
  have top : d.val.toNat < 1114112 := by
    rcases d.valid with low | high <;> omega
  unfold String.utf8EncodeChar
  generalize c.val.toNat = v at values ⊢
  generalize d.val.toNat = w at values top ⊢
  dsimp only
  split_ifs <;> try omega
  -- encodings of unlike lengths differ in the first byte, those of like lengths in some byte
  · exact cons_lt_of_le (by omega) (by omega) (by omega)
  · exact cons_lt_of_le (by omega) (by omega) (by omega)
  · exact cons_lt_of_le (by omega) (by omega) (by omega)
  · exact cons_lt_of_le (by omega) (by omega) (by omega)
  · refine cons_lt_of_le (by omega) (by omega) fun _ => ?_
    exact cons_lt_of_le (by omega) (by omega) (by omega)
  · exact cons_lt_of_le (by omega) (by omega) (by omega)
  · exact cons_lt_of_le (by omega) (by omega) (by omega)
  · refine cons_lt_of_le (by omega) (by omega) fun _ => ?_
    refine cons_lt_of_le (by omega) (by omega) fun _ => ?_
    exact cons_lt_of_le (by omega) (by omega) (by omega)
  · exact cons_lt_of_le (by omega) (by omega) (by omega)
  · refine cons_lt_of_le (by omega) (by omega) fun _ => ?_
    refine cons_lt_of_le (by omega) (by omega) fun _ => ?_
    refine cons_lt_of_le (by omega) (by omega) fun _ => ?_
    exact cons_lt_of_le (by omega) (by omega) (by omega)

theorem flatMap_encode_lt {s t : List Char} (less : s < t) :
    s.flatMap String.utf8EncodeChar < t.flatMap String.utf8EncodeChar := by
  induction less with
  | nil =>
      rename_i c rest
      rw [List.flatMap_nil, List.flatMap_cons]
      cases encoded : String.utf8EncodeChar c with
      | nil => exact absurd encoded String.utf8EncodeChar_ne_nil
      | cons => exact List.nil_lt_cons _ _
  | rel first => exact encode_append_lt first _ _
  | cons _ ih => exact List.append_left_lt ih

theorem lt_iff_bytes_lt {s t : String} : s < t ↔ bytes s < bytes t := by
  have keeps : ∀ {s t : String}, s < t → bytes s < bytes t := by
    intro s t less
    rw [bytes_eq_flatMap, bytes_eq_flatMap]
    exact flatMap_encode_lt (String.lt_iff.mp less)
  refine ⟨keeps, ?_⟩
  intro less
  rcases lt_trichotomy s t with before | same | after
  · exact before
  · rw [same] at less
    exact absurd less (List.lt_irrefl _)
  · exact absurd less (List.lt_asymm (keeps after))

theorem le_iff_bytes_le {s t : String} : s ≤ t ↔ bytes s ≤ bytes t := by
  rw [← String.not_lt, ← List.not_lt, lt_iff_bytes_lt]

def ByteSorted (list : List String) : Prop :=
  list.Pairwise fun s t => bytes s ≤ bytes t

theorem byteSorted_iff {list : List String} : ByteSorted list ↔ list.Pairwise (· ≤ ·) := by
  simp only [ByteSorted, le_iff_bytes_le]

theorem ByteSorted.eq_of_perm {first second : List String} (sorted : ByteSorted first)
    (sortedToo : ByteSorted second) (same : first.Perm second) : first = second :=
  same.eq_of_pairwise (fun _ _ _ _ before after => le_antisymm before after)
    (byteSorted_iff.mp sorted) (byteSorted_iff.mp sortedToo)

end CallOrder.Text
