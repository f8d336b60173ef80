import CallOrder.Json.Record
import Mathlib.Data.List.Nodup

/-!
What is written as a record, a list or a map is read back. Main statement: an object with the
declared fields in their order is read as the values of these.
-/

namespace CallOrder

variable {α β : Type}

theorem mapM_map_eq_some {write : α → β} {read : β → Option α} {list : List α}
    (back : ∀ member ∈ list, read (write member) = some member) :
    (list.map write).mapM read = some list := by
  induction list with
  | nil => rfl
  | cons first list ih =>
      obtain ⟨here, later⟩ := List.forall_mem_cons.mp back
      simp [here, ih later]

namespace Field

variable {fs : List Field} {f : Field} {before after : List (String × α)} {value : α}

theorem named?_append (others : ∀ entry ∈ before ++ after, entry.1 ≠ f.name) :
    named? (before ++ (f.name, value) :: after) f = some (some value) := by
  have outside : ∀ entries ⊆ before ++ after,
      entries.filter (fun entry => entry.1 == f.name) = [] := by
    intro entries part
    simpa [List.filter_eq_nil_iff] using fun name value member => others (name, value) (part member)
  simp [named?, outside]

theorem allNamed?_append_zip {values : List α} (distinct : (fs.map name).Nodup)
    (others : ∀ entry ∈ before, entry.1 ∉ fs.map name) (length : values.length = fs.length) :
    allNamed? fs (before ++ (fs.map name).zip values) = some (values.map some) := by
  induction fs generalizing before values with
  | nil =>
      rw [List.length_eq_zero_iff.mp length]
      rfl
  | cons f fs ih =>
      cases values with
      | nil => cases length
      | cons value values =>
          obtain ⟨new, distinct⟩ := List.nodup_cons.mp distinct
          have behind : ∀ entry ∈ (fs.map name).zip values, entry.1 ∈ fs.map name :=
            fun entry member => (List.of_mem_zip member).1
          have here : named? (before ++ (f.name, value) :: (fs.map name).zip values) f =
              some (some value) := by
            apply named?_append
            intro entry member same
            rcases List.mem_append.mp member with earlier | later
            · exact others entry earlier (same ▸ List.mem_cons_self)
            · exact new (same ▸ behind entry later)
          have passed : ∀ entry ∈ before ++ [(f.name, value)], entry.1 ∉ fs.map name := by
            intro entry member
            rcases List.mem_append.mp member with earlier | last
            · exact fun later => others entry earlier (List.mem_cons_of_mem _ later)
            · rw [List.mem_singleton.mp last]
              exact new
          have rest := ih distinct passed (Nat.succ.inj length)
          rw [List.append_assoc, List.singleton_append, allNamed?] at rest
          simp [allNamed?, here, rest]

theorem allNamed?_zip (fs : List Field) (values : List α) (distinct : (fs.map name).Nodup)
    (length : values.length = fs.length) :
    allNamed? fs ((fs.map name).zip values) = some (values.map some) := by
  exact allNamed?_append_zip distinct (List.forall_mem_nil _) length

end Field

namespace Json

/-- A record is read back from an object of its fields as they are declared. -/
theorem record?_object (fs : List Field) (values : List Json) (distinct : (fs.map Field.name).Nodup)
    (length : values.length = fs.length) :
    (object ((fs.map Field.name).zip values)).record? fs = some (values.map some) :=
  Field.allNamed?_zip fs values distinct length

variable (write : α → Json) (read : Json → Option α)

theorem list?_array {list : List α} (back : ∀ member ∈ list, read (write member) = some member) :
    (array (list.map write)).list? read = some list := mapM_map_eq_some back

@[simp] theorem list?_texts (list : List String) : (texts list).list? text? = some list :=
  list?_array text text? fun _ _ => rfl

@[simp] theorem list?_naturals (list : List Nat) : (naturals list).list? natural? = some list :=
  list?_array natural natural? fun _ _ => rfl

@[simp] theorem nullableField?_textOrNull (value : Option String) :
    nullableField? text? (some (textOrNull value)) = some value := by
  cases value <;> rfl

theorem word?_natural {n : Nat} (fits : n < UInt32.size) : (natural n).word? = some n :=
  if_pos fits

theorem set_ofList_toList [Ord α] [Std.TransOrd α] [Std.LawfulEqOrd α] (s : Std.ExtTreeSet α) :
    Std.ExtTreeSet.ofList s.toList = s := by
  classical
  apply Std.ExtTreeSet.ext_mem
  simp [Std.ExtTreeSet.mem_ofList]

theorem map_ofList_toList (m : Std.ExtTreeMap String α) : Std.ExtTreeMap.ofList m.toList = m := by
  apply Std.ExtTreeMap.ext_getElem?
  intro key
  cases found : m[key]? with
  | none =>
      apply Std.ExtTreeMap.getElem?_ofList_of_contains_eq_false
      rw [Std.ExtTreeMap.map_fst_toList_eq_keys, ← Bool.not_eq_true, List.contains_iff_mem,
        Std.ExtTreeMap.mem_keys, Std.ExtTreeMap.mem_iff_isSome_getElem?, found]
      exact Bool.false_ne_true
  | some value =>
      exact Std.ExtTreeMap.getElem?_ofList_of_mem Std.ReflCmp.compare_self
        Std.ExtTreeMap.distinct_keys_toList
        (Std.ExtTreeMap.mem_toList_iff_getElem?_eq_some.mpr found)

theorem map?_ofMap (back : ∀ value, read (write value) = some value)
    (m : Std.ExtTreeMap String α) : (ofMap write m).map? read = some m := by
  have entries : (m.toList.map fun entry => (entry.1, write entry.2)).mapM
      (fun field => do return (field.1, ← read field.2)) = some m.toList :=
    mapM_map_eq_some fun entry _ => by simp [back]
  rw [ofMap, map?, entries]
  exact congrArg some (map_ofList_toList m)

end Json

end CallOrder
