import CallOrder.Automaton.Graphviz
import CallOrder.Proofs.Compilation
import CallOrder.Proofs.Text.Digits

/-!
What the drawing of an automaton tells of it. Labels stand between quotes as they are, so a token
can be such that one arrow looks like two. Main statement: but for such tokens, whatever the words
of an automaton depend on can be told from its drawing.
-/

namespace CallOrder.Dfa

/-- The end of a label and the beginning of an arrow behind it. -/
def seam : List Char := "\"];\n    q".toList

def Seamless (d : Dfa) : Prop :=
  ∀ state ∈ d.states, ∀ token ∈ state.transitions.keys, ¬ seam <:+: token.toList

instance (d : Dfa) : Decidable d.Seamless :=
  decidable_of_iff
    (d.states.toList.all fun state =>
      state.transitions.keys.all fun token => ¬ seam <:+: token.toList) <| by
      simp only [Seamless, List.all_eq_true, decide_eq_true_eq, Array.mem_toList_iff]

def Numbered (d : Dfa) : Prop := ∀ i state, d.state? i = some state → state.id = i

structure Agrees (d e : Dfa) : Prop where
  size : d.size = e.size
  start : d.start = e.start
  accepting : ∀ i, d.isAccepting i = e.isAccepting i
  next : ∀ i token, d.next? i token = e.next? i token

def faces (d : Dfa) : List (Nat × Bool) :=
  d.states.toList.map fun state => (state.id, state.accepting)

def arrows (d : Dfa) : List (Nat × Token × Nat) :=
  d.states.toList.flatMap fun state => state.transitions.toList.map fun arrow => (state.id, arrow)

variable {d e : Dfa} {u v : List Char}

def faceText (face : Nat × Bool) : List Char :=
  "    q".toList ++ (Nat.toDigits 10 face.1 ++ (" [shape=".toList ++
    ((if face.2 then "doublecircle" else "circle").toList ++ "];\n".toList)))

def arrowText (arrow : Nat × Token × Nat) : List Char :=
  "    q".toList ++ (Nat.toDigits 10 arrow.1 ++ (" -> q".toList ++ (Nat.toDigits 10 arrow.2.2 ++
    (" [label=\"".toList ++ (arrow.2.1.toList ++ "\"];\n".toList)))))

theorem faceText_append (face : Nat × Bool) (rest : List Char) : faceText face ++ rest =
    "    q".toList ++ (Nat.toDigits 10 face.1 ++ (" [shape=".toList ++
      ((if face.2 then "doublecircle" else "circle").toList ++ ("];\n".toList ++ rest)))) := by
  delta faceText
  simp only [List.append_assoc]

theorem arrowText_append (arrow : Nat × Token × Nat) (rest : List Char) : arrowText arrow ++ rest =
    "    q".toList ++ (Nat.toDigits 10 arrow.1 ++ (" -> q".toList ++ (Nat.toDigits 10 arrow.2.2 ++
      (" [label=\"".toList ++ (arrow.2.1.toList ++ ("\"];\n".toList ++ rest)))))) := by
  delta arrowText
  simp only [List.append_assoc]

theorem toList_nodeLine (state : State) :
    (nodeLine state).toList = faceText (state.id, state.accepting) := by
  simp only [nodeLine, Nat.toString_eq_repr, String.toList_append, List.append_assoc,
    Nat.toList_repr]
  rfl

theorem toList_arrowLine (source : Nat) (arrow : Token × Nat) :
    (arrowLine source arrow).toList = arrowText (source, arrow) := by
  simp only [arrowLine, Nat.toString_eq_repr, String.toList_append, List.append_assoc,
    Nat.toList_repr]
  rfl

theorem flatMap_arrowLines (state : State) : (arrowLines state).flatMap String.toList =
    (state.transitions.toList.map fun arrow => (state.id, arrow)).flatMap arrowText := by
  simp only [arrowLines, List.flatMap_map, toList_arrowLine]

theorem toList_toGraphviz (d : Dfa) : d.toGraphviz.toList =
    "digraph dfa \x7b\n    rankdir=LR;\n    __start [shape=point];\n".toList ++
      (d.faces.flatMap faceText ++ ("    __start -> q".toList ++ (Nat.toDigits 10 d.start ++
        (";\n".toList ++ (d.arrows.flatMap arrowText ++ "\x7d\n".toList))))) := by
  unfold toGraphviz
  simp only [String.toList_append, String.toList_join, faces, arrows, List.flatMap_map,
    List.flatMap_assoc, List.append_assoc, toList_nodeLine, flatMap_arrowLines,
    Nat.toString_eq_repr, Nat.toList_repr]

/-! ### States -/

theorem shape_append_inj {accepting other : Bool}
    (same : (if accepting then "doublecircle" else "circle").toList ++ u =
      (if other then "doublecircle" else "circle").toList ++ v) : accepting = other ∧ u = v := by
  cases accepting <;> cases other
  case false.false | true.true => exact ⟨rfl, List.append_cancel_left same⟩
  case false.true =>
    have heads : some 'c' = some 'd' := congrArg List.head? same
    exact absurd heads (by decide)
  case true.false =>
    have heads : some 'd' = some 'c' := congrArg List.head? same
    exact absurd heads (by decide)

theorem faceText_append_inj {face other : Nat × Bool}
    (same : faceText face ++ u = faceText other ++ v) : face = other ∧ u = v := by
  rw [faceText_append, faceText_append] at same
  obtain ⟨numbers, rest⟩ :=
    toDigits_append_inj (by decide) (by decide) (List.append_cancel_left same)
  obtain ⟨shapes, rest⟩ := shape_append_inj (@List.append_cancel_left _ " [shape=".toList _ _ rest)
  exact ⟨Prod.ext numbers shapes, List.append_cancel_left rest⟩

theorem start_ne_faceText (face : Nat × Bool) :
    "    __start -> q".toList ++ u ≠ faceText face ++ v := by
  intro same
  have fifths : some '_' = some 'q' := congrArg (·[4]?) same
  exact absurd fifths (by decide)

theorem faces_append_inj {faces others : List (Nat × Bool)}
    (same : faces.flatMap faceText ++ ("    __start -> q".toList ++ u) =
      others.flatMap faceText ++ ("    __start -> q".toList ++ v)) : faces = others ∧ u = v := by
  induction faces generalizing others with
  | nil =>
      cases others with
      | nil => exact ⟨rfl, List.append_cancel_left same⟩
      | cons other others =>
          rw [List.flatMap_cons, List.append_assoc] at same
          exact absurd same (start_ne_faceText other)
  | cons face faces ih =>
      cases others with
      | nil =>
          rw [List.flatMap_cons, List.append_assoc] at same
          exact absurd same.symm (start_ne_faceText face)
      | cons other others =>
          rw [List.flatMap_cons, List.flatMap_cons, List.append_assoc, List.append_assoc] at same
          obtain ⟨first, rest⟩ := faceText_append_inj same
          obtain ⟨further, ends⟩ := ih rest
          exact ⟨by rw [first, further], ends⟩

/-! ### Arrows -/

theorem arrowText_append_inj {arrow other : Nat × Token × Nat}
    (same : arrowText arrow ++ u = arrowText other ++ v) :
    arrow.1 = other.1 ∧ arrow.2.2 = other.2.2 ∧
      arrow.2.1.toList ++ ("\"];\n".toList ++ u) = other.2.1.toList ++ ("\"];\n".toList ++ v) := by
  rw [arrowText_append, arrowText_append] at same
  obtain ⟨sources, rest⟩ :=
    toDigits_append_inj (by decide) (by decide) (List.append_cancel_left same)
  obtain ⟨targets, rest⟩ := toDigits_append_inj (by decide) (by decide)
    (@List.append_cancel_left _ " -> q".toList _ _ rest)
  exact ⟨sources, targets, @List.append_cancel_left _ " [label=\"".toList _ _ rest⟩

theorem end_ne_arrowText (arrow : Nat × Token × Nat) : "\x7d\n".toList ≠ arrowText arrow ++ v := by
  intro same
  have heads : some '\x7d' = some ' ' := congrArg List.head? same
  exact absurd heads (by decide)

def FollowsArrow (rest : List Char) : Prop := rest = "\x7d\n".toList ∨ "    q".toList <+: rest

theorem followsArrow_flatMap (arrows : List (Nat × Token × Nat)) :
    FollowsArrow (arrows.flatMap arrowText ++ "\x7d\n".toList) := by
  cases arrows with
  | nil => exact Or.inl rfl
  | cons arrow arrows =>
      right
      rw [List.flatMap_cons, List.append_assoc, arrowText_append]
      exact List.prefix_append _ _

/-- The quote at the end of a label is the first one with the rest of the line, and a further line
or the end of the drawing, behind it. -/
theorem nil_of_label_end {more : List Char} (follows : FollowsArrow u) (followsToo : FollowsArrow v)
    (seamless : ¬ seam <:+: more)
    (same : "\"];\n".toList ++ u = more ++ ("\"];\n".toList ++ v)) : more = [] := by
  rcases follows with rfl | ⟨rest, rfl⟩
  · have long : 2 ≤ v.length := by
      rcases followsToo with rfl | ⟨rest, rfl⟩ <;> simp
    have lengths := congrArg List.length same
    simp only [List.length_append] at lengths
    exact List.length_eq_zero_iff.mp (by simp at lengths; omega)
  · rw [← List.append_assoc] at same
    rcases List.append_eq_append_iff.mp same with ⟨_, whole, _⟩ | ⟨part, cut, ends⟩
    · exact absurd (whole ▸ List.prefix_append _ _).isInfix seamless
    · -- the seam has its one quote in front
      have single : '"' ∉ seam.tail := by decide
      cases more with
      | nil => rfl
      | cons c more =>
          have cut : seam = c :: more ++ part := cut
          cases part with
          | nil => exact absurd (cut.trans (List.append_nil _) ▸ List.infix_rfl) seamless
          | cons quote part =>
              obtain rfl : '"' = quote := (List.cons.inj ends).1
              exact absurd (by rw [cut]; simp) single

theorem token_append_inj {s t : List Char} (seamless : ¬ seam <:+: s) (seamlessToo : ¬ seam <:+: t)
    (follows : FollowsArrow u) (followsToo : FollowsArrow v)
    (same : s ++ ("\"];\n".toList ++ u) = t ++ ("\"];\n".toList ++ v)) : s = t ∧ u = v := by
  rcases List.append_eq_append_iff.mp same with ⟨more, rfl, rest⟩ | ⟨more, rfl, rest⟩
  · have shorter : ¬ seam <:+: more := fun inside =>
      seamlessToo (inside.trans (List.suffix_append s more).isInfix)
    obtain rfl := nil_of_label_end follows followsToo shorter rest
    exact ⟨(List.append_nil s).symm, List.append_cancel_left rest⟩
  · have shorter : ¬ seam <:+: more := fun inside =>
      seamless (inside.trans (List.suffix_append t more).isInfix)
    obtain rfl := nil_of_label_end followsToo follows shorter rest
    exact ⟨List.append_nil t, (List.append_cancel_left rest).symm⟩

theorem arrows_append_inj {arrows others : List (Nat × Token × Nat)}
    (seamless : ∀ arrow ∈ arrows, ¬ seam <:+: arrow.2.1.toList)
    (seamlessToo : ∀ arrow ∈ others, ¬ seam <:+: arrow.2.1.toList)
    (same : arrows.flatMap arrowText ++ "\x7d\n".toList =
      others.flatMap arrowText ++ "\x7d\n".toList) : arrows = others := by
  induction arrows generalizing others with
  | nil =>
      cases others with
      | nil => rfl
      | cons other others =>
          rw [List.flatMap_cons, List.append_assoc] at same
          exact absurd same (end_ne_arrowText other)
  | cons arrow arrows ih =>
      cases others with
      | nil =>
          rw [List.flatMap_cons, List.append_assoc] at same
          exact absurd same.symm (end_ne_arrowText arrow)
      | cons other others =>
          obtain ⟨first, further⟩ := List.forall_mem_cons.mp seamless
          obtain ⟨firstToo, furtherToo⟩ := List.forall_mem_cons.mp seamlessToo
          rw [List.flatMap_cons, List.flatMap_cons, List.append_assoc, List.append_assoc] at same
          obtain ⟨sources, targets, rest⟩ := arrowText_append_inj same
          obtain ⟨tokens, rest⟩ := token_append_inj first firstToo (followsArrow_flatMap arrows)
            (followsArrow_flatMap others) rest
          have ends : arrow.2 = other.2 := Prod.ext (String.toList_injective tokens) targets
          rw [Prod.ext sources ends, ih further furtherToo rest]

/-! ### Automata -/

theorem toGraphviz_eq_iff : d.toGraphviz = e.toGraphviz ↔ d.faces = e.faces ∧ d.start = e.start ∧
    d.arrows.flatMap arrowText ++ "\x7d\n".toList =
      e.arrows.flatMap arrowText ++ "\x7d\n".toList := by
  rw [← String.toList_inj, toList_toGraphviz, toList_toGraphviz, List.append_cancel_left_eq]
  constructor
  · intro same
    obtain ⟨faces, rest⟩ := faces_append_inj same
    obtain ⟨starts, rest⟩ := toDigits_append_inj (by decide) (by decide) rest
    exact ⟨faces, starts, @List.append_cancel_left _ ";\n".toList _ _ rest⟩
  · rintro ⟨faces, starts, arrows⟩
    rw [faces, starts, arrows]

theorem mem_arrows {i next : Nat} {token : Token} : (i, token, next) ∈ d.arrows ↔
    ∃ state ∈ d.states, state.id = i ∧ state.transitions[token]? = some next := by
  simp [arrows, Std.ExtTreeMap.mem_toList_iff_getElem?_eq_some, and_comm]

theorem Seamless.arrows (seamless : d.Seamless) :
    ∀ arrow ∈ d.arrows, ¬ seam <:+: arrow.2.1.toList := by
  rintro ⟨i, token, next⟩ drawn
  obtain ⟨state, member, _, leads⟩ := mem_arrows.mp drawn
  refine seamless state member token (Std.ExtTreeMap.mem_keys.mpr ?_)
  exact Std.ExtTreeMap.mem_iff_isSome_getElem?.mpr (by simp [leads])

theorem Numbered.next?_eq_some (numbered : d.Numbered) {i next : Nat} {token : Token} :
    d.next? i token = some next ↔ (i, token, next) ∈ d.arrows := by
  rw [mem_arrows, next?, Option.bind_eq_some_iff]
  constructor
  · rintro ⟨state, found, leads⟩
    exact ⟨state, Array.mem_of_getElem? found, numbered i state found, leads⟩
  · rintro ⟨state, member, number, leads⟩
    obtain ⟨j, found⟩ := Array.mem_iff_getElem?.mp member
    obtain rfl : j = i := (numbered j state found).symm.trans number
    exact ⟨state, found, leads⟩

theorem isAccepting_eq_faces (d : Dfa) (i : Nat) : d.isAccepting i = d.faces[i]?.any (·.2) := by
  simp [isAccepting, state?, faces, Option.any_map]

theorem map_states_eq {α : Type} {drawn : State → α} (size : d.size = e.size)
    (same : ∀ i state other, d.state? i = some state → e.state? i = some other →
      drawn state = drawn other) :
    d.states.toList.map drawn = e.states.toList.map drawn := by
  apply List.ext_getElem (by simpa [Dfa.size] using size)
  intro i here there
  rw [List.getElem_map, List.getElem_map]
  apply same i <;> simp [state?]

theorem Agrees.faces_eq (numbered : d.Numbered) (numberedToo : e.Numbered) (agrees : d.Agrees e) :
    d.faces = e.faces := by
  refine map_states_eq agrees.size fun i state other found foundToo => ?_
  have accepting := agrees.accepting i
  simp only [isAccepting, found, foundToo, Option.any_some] at accepting
  rw [numbered i state found, numberedToo i other foundToo, accepting]

theorem Agrees.arrows_eq (numbered : d.Numbered) (numberedToo : e.Numbered) (agrees : d.Agrees e) :
    d.arrows = e.arrows := by
  rw [arrows, arrows, List.flatMap_def, List.flatMap_def]
  refine congrArg List.flatten (map_states_eq agrees.size fun i state other found foundToo => ?_)
  have next : state.transitions = other.transitions := by
    apply Std.ExtTreeMap.ext_getElem?
    intro token
    rw [← next?_eq found, agrees.next, next?_eq foundToo]
  rw [numbered i state found, numberedToo i other foundToo, next]

theorem numbered_of_compile {limits : Limits} {p : Pattern} (compiled : p.compile limits = .ok d) :
    d.Numbered := by
  obtain ⟨n, _, simulates, _⟩ := Pattern.compile_ok compiled
  exact simulates.id_eq

/-- Drawings that are the same are of automata with the same states, start and ends. Where no token
has a seam in it, the transitions are the same too, and this is all that a drawing depends on. -/
theorem drawing_faithful (numbered : d.Numbered) (numberedToo : e.Numbered) :
    (d.toGraphviz = e.toGraphviz →
      d.size = e.size ∧ d.start = e.start ∧ ∀ i, d.isAccepting i = e.isAccepting i) ∧
    (d.Seamless → e.Seamless → (d.toGraphviz = e.toGraphviz ↔ d.Agrees e)) := by
  have shapes : d.toGraphviz = e.toGraphviz →
      d.size = e.size ∧ d.start = e.start ∧ ∀ i, d.isAccepting i = e.isAccepting i := by
    intro same
    obtain ⟨faces, starts, _⟩ := toGraphviz_eq_iff.mp same
    have size : d.size = e.size := by simpa [Dfa.faces, Dfa.size] using congrArg List.length faces
    exact ⟨size, starts, fun i => by rw [isAccepting_eq_faces, isAccepting_eq_faces, faces]⟩
  refine ⟨shapes, fun seamless seamlessToo => ⟨?_, ?_⟩⟩
  · intro same
    obtain ⟨size, start, accepting⟩ := shapes same
    have arrows := arrows_append_inj seamless.arrows seamlessToo.arrows
      (toGraphviz_eq_iff.mp same).2.2
    refine ⟨size, start, accepting, fun i token => Option.ext fun next => ?_⟩
    rw [numbered.next?_eq_some, numberedToo.next?_eq_some, arrows]
  · intro agrees
    refine toGraphviz_eq_iff.mpr ⟨agrees.faces_eq numbered numberedToo, agrees.start, ?_⟩
    rw [agrees.arrows_eq numbered numberedToo]

def preceded (base : Base) (kind : Quantifier) : Pattern :=
  .sequence (.quantified (.terminal base "a") kind none) (.terminal base "c")

theorem preceded_drawing_faithful : ∃ d e, (preceded "x" .maybe).compile .standard = .ok d ∧
    (preceded "y" .option).compile .standard = .ok e ∧ d ≠ e ∧ d.Numbered ∧ e.Numbered ∧
    d.Seamless ∧ e.Seamless ∧ d.toGraphviz = e.toGraphviz ∧ d.Agrees e := by
  have compile : ((preceded "x" .maybe).compile .standard).toOption.any fun d =>
      ((preceded "y" .option).compile .standard).toOption.any fun e =>
        d ≠ e ∧ d.Seamless ∧ e.Seamless ∧ d.toGraphviz = e.toGraphviz := by
    decide +kernel
  obtain ⟨d, compiled, rest⟩ := exists_eq_ok compile
  obtain ⟨e, compiledToo, rest⟩ := exists_eq_ok rest
  obtain ⟨differ, seamless, seamlessToo, same⟩ := of_decide_eq_true rest
  have numbered := numbered_of_compile compiled
  have numberedToo := numbered_of_compile compiledToo
  obtain ⟨_, faithful⟩ := drawing_faithful numbered numberedToo
  exact ⟨d, e, compiled, compiledToo, differ, numbered, numberedToo, seamless, seamlessToo, same,
    (faithful seamless seamlessToo).mp same⟩

/-- A call whose name reads like the labels of two arrows. -/
def quoting : Pattern :=
  .sequence (.terminal "x" "a\"];\n    q0 -> q2 [label=\"c") (.terminal "x" "c")

/-- The call cannot be left out, but the drawing has an arrow past it. -/
theorem quoting_drawing_misread : ∃ d e, (preceded "x" .maybe).compile .standard = .ok d ∧
    quoting.compile .standard = .ok e ∧ d.Numbered ∧ e.Numbered ∧ d.toGraphviz = e.toGraphviz ∧
    d.next? 0 "c" = some 2 ∧ e.next? 0 "c" = none := by
  have compile : ((preceded "x" .maybe).compile .standard).toOption.any fun d =>
      (quoting.compile .standard).toOption.any fun e =>
        d.toGraphviz = e.toGraphviz ∧ d.next? 0 "c" = some 2 ∧ e.next? 0 "c" = none := by
    decide +kernel
  obtain ⟨d, compiled, rest⟩ := exists_eq_ok compile
  obtain ⟨e, compiledToo, rest⟩ := exists_eq_ok rest
  exact ⟨d, e, compiled, compiledToo, numbered_of_compile compiled,
    numbered_of_compile compiledToo, of_decide_eq_true rest⟩

end CallOrder.Dfa
