import CallOrder.Proofs.Json.Record
import CallOrder.Proofs.Yaml.Lines
import CallOrder.Proofs.Yaml.Number
import CallOrder.Yaml.Record

/-!
Reading YAML text that has a pair of words on each line. Main statement: where the words in front
are the declared fields, the text is read as a record of the words behind them.
-/

namespace CallOrder.Yaml

def wordNode (w : String) : Node := .scalar .bare .plain w

variable {pairs : List (String × String)}

namespace Node

variable {handles : List (String × Tag)} {labels : List (String × Nat)} {rest : List Token}

theorem node?_word (steps : Nat) (block indentless : Bool) (w : String) :
    node? (steps + 1) block indentless ⟨.scalar .plain w :: rest, handles, labels⟩ =
      some (wordNode w, ⟨rest, handles, labels⟩) := by
  simp [node?, properties?, labelOf?, tagOf?, State.next?, State.skip, wordNode]

theorem blockPart?_word (steps : Nat) (w : String) :
    blockPart? (steps + 2) ⟨.scalar .plain w :: rest, handles, labels⟩ =
      some (wordNode w, ⟨rest, handles, labels⟩) := by
  rw [blockPart?]
  exact node?_word steps true true w

theorem blockPairs?_pairs (steps : Nat) :
    blockPairs? (steps + 3 + pairs.length)
        ⟨pairs.flatMap pairTokens ++ [.blockEnd], handles, labels⟩ =
      some (pairs.map (Prod.map wordNode wordNode), ⟨[], handles, labels⟩) := by
  induction pairs with
  | nil => simp [blockPairs?, State.next?, State.skip]
  | cons pair pairs ih =>
      have enough : steps + 3 + pairs.length = steps + 1 + pairs.length + 2 := by omega
      rw [List.length_cons, ← Nat.add_assoc, blockPairs?, enough]
      simp [pairTokens, State.next?, State.skip, blockPart?_word]
      rw [← enough, ih]
      rfl

theorem node?_mapping (steps : Nat) (indentless : Bool) :
    node? (steps + 3 + pairs.length + 1) true indentless
        ⟨.blockMappingStart :: (pairs.flatMap pairTokens ++ [.blockEnd]), handles, labels⟩ =
      some (mapping .bare (pairs.map (Prod.map wordNode wordNode)), ⟨[], handles, labels⟩) := by
  simp [node?, properties?, labelOf?, tagOf?, State.next?, State.skip, blockPairs?_pairs]

theorem ofTokens?_pairs :
    ofTokens? (Token.blockMappingStart :: (pairs.flatMap pairTokens ++ [Token.blockEnd])) =
      some (mapping .bare (pairs.map (Prod.map wordNode wordNode))) := by
  have length : (pairs.flatMap pairTokens).length = 4 * pairs.length := by
    simp [List.length_flatMap, pairTokens, Nat.mul_comm]
  have read : node? (4 * (pairs.flatMap pairTokens ++ [Token.blockEnd]).length.succ + 8) true false
      ⟨Token.blockMappingStart :: (pairs.flatMap pairTokens ++ [Token.blockEnd]), standardHandles,
        []⟩ =
      some (mapping .bare (pairs.map (Prod.map wordNode wordNode)), ⟨[], standardHandles, []⟩) := by
    have enough : 4 * (pairs.flatMap pairTokens ++ [Token.blockEnd]).length.succ + 8 =
        15 * pairs.length + 12 + 3 + pairs.length + 1 := by
      rw [List.length_append, length, List.length_singleton]
      omega
    rw [enough]
    exact node?_mapping _ false
  simp only [ofTokens?, List.length_cons]
  rw [read]
  rfl

end Node

theorem parse?_lines {s : String} (plain : ∀ pair ∈ pairs, PlainPair pair) (present : pairs ≠ [])
    (spelt : s.toList = pairs.flatMap lineText) :
    Document.parse? s =
      some (.ofRoot (.mapping .bare (pairs.map (Prod.map wordNode wordNode)))) := by
  simp [Document.parse?, tokens?_lines plain present spelt, Node.ofTokens?_pairs]

/-! ### Records -/

theorem liftM_some {α : Type} (value : α) : (liftM (some value) : Reading α) = pure value := rfl

theorem read?_eq_some {α : Type} {d : Document} {read : Node → Reading α} {value : α}
    (reads : read d.root = pure value) : d.read? read = some value := by
  rw [Document.read?, reads]
  rfl

namespace Node

theorem text?_wordNode (w : String) : (wordNode w).text? = pure w := rfl

theorem named?_mapping (pairs : List (String × String)) :
    (mapping .bare (pairs.map (Prod.map wordNode wordNode))).named? =
      pure (pairs.map fun pair => (pair.1, wordNode pair.2)) := by
  have each : (pairs.map (Prod.map wordNode wordNode)).mapM
      (fun pair : Node × Node => do return (← pair.1.text?, pair.2)) =
        (pure (pairs.map fun pair => (pair.1, wordNode pair.2)) : Reading _) := by
    induction pairs with
    | nil => rfl
    | cons pair pairs ih =>
        rw [List.map_cons, List.mapM_cons, ih]
        rfl
  exact each

theorem strictRecord?_mapping {fs : List Field} (distinct : (fs.map Field.name).Nodup)
    (names : pairs.map Prod.fst = fs.map Field.name) :
    (mapping .bare (pairs.map (Prod.map wordNode wordNode))).strictRecord? fs =
      pure (pairs.map fun pair => some (wordNode pair.2)) := by
  have zipped : (pairs.map fun pair => (pair.1, wordNode pair.2)) =
      (fs.map Field.name).zip (pairs.map fun pair => wordNode pair.2) := by
    rw [← names, List.zip_map']
  have length : (pairs.map fun pair => wordNode pair.2).length = fs.length := by
    simpa using congrArg List.length names
  have known : (pairs.map fun pair => (pair.1, wordNode pair.2)).all
      (fun value => fs.any (·.name == value.1)) = true := by
    rw [List.all_map, List.all_eq_true]
    intro pair member
    have declared : pair.1 ∈ fs.map Field.name := names ▸ List.mem_map_of_mem member
    obtain ⟨f, listed, same⟩ := List.mem_map.mp declared
    exact List.any_eq_true.mpr ⟨f, listed, beq_iff_eq.mpr same⟩
  have found := Field.allNamed?_zip fs _ distinct length
  rw [strictRecord?, named?_mapping]
  simp only [pure_bind, known]
  rw [zipped, found, if_pos trivial, List.map_map]
  rfl

variable {α : Type} {read : Node → Reading α}

theorem nullableField?_word {w : String} {value : α} (present : w ≠ "") (named : isNull w = false)
    (reads : read (wordNode w) = pure value) :
    nullableField? read (some (wordNode w)) = pure (some value) := by
  have written : (wordNode w).isNull? = some false := by
    simp [wordNode, isNull?, Properties.bare, named, present]
  have followed : (wordNode w).follow = pure (wordNode w) := rfl
  rw [nullableField?, nullable?, followed, pure_bind, written, liftM_some, pure_bind, reads]
  rfl

theorem nullableField?_null : nullableField? read (some (wordNode "null")) = pure none := rfl

theorem natural?_word {n : Nat} (fits : n < UInt64.size) :
    (wordNode (toString n)).natural? = pure n := by
  have typed : (wordNode (toString n)).typedText? "int" = pure (toString n) := rfl
  rw [natural?, typed, pure_bind, natural?_toString, liftM_some, pure_bind, if_pos fits]

theorem word?_word {n : Nat} (fits : n < UInt32.size) : (wordNode (toString n)).word? = pure n := by
  have wider : n < UInt64.size := fits.trans (by decide)
  rw [word?, natural?_word wider, pure_bind, if_pos fits]

theorem bool?_word (b : Bool) : (wordNode (toString b)).bool? = pure b := by
  cases b <;> rfl

end Node

end CallOrder.Yaml
