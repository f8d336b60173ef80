import CallOrder.Proofs.Compilation
import CallOrder.Proofs.Extent
import Mathlib.Tactic.Ring

/-! The room that building takes: whether a piece of work succeeds depends on how many levels and
how many states it takes and on nothing else. -/

namespace CallOrder

namespace Work

variable {α β : Type} {limits : Limits} {bench : Workbench} {levels states more moreStates : Nat}
  {result : α → Prop} {final : β → Prop} {work : Work α} {next : α → Work β}

/-- What work may come to that takes the given levels and states. It is done where they fit into the
limits, and a limit that they do not fit into is what it fails by. -/
inductive Outcome (limits : Limits) (bench : Workbench) (levels states : Nat) (result : α → Prop) :
    Except Error α × Workbench → Prop
  | done {value : α} {after : Workbench} (shallow : bench.depth + levels ≤ limits.maxDepth)
      (room : bench.nfa.size + states ≤ limits.maxNfaStates)
      (grown : after.nfa.size = bench.nfa.size + states) (level : after.depth = bench.depth)
      (holds : result value) : Outcome limits bench levels states result (.ok value, after)
  | tooDeep {after : Workbench} (deep : limits.maxDepth < bench.depth + levels) :
      Outcome limits bench levels states result
        (.error (.specification (.tooDeep limits.maxDepth)), after)
  | full {after : Workbench} (full : limits.maxNfaStates < bench.nfa.size + states) :
      Outcome limits bench levels states result
        (.error (.automatonLimit limits.maxNfaStates (limits.maxNfaStates + 1)), after)

/-- From within the limits, `work` takes these levels and states and gives such a result. -/
def Takes (limits : Limits) (work : Work α) (levels states : Nat) (result : α → Prop) : Prop :=
  ∀ bench : Workbench, bench.depth ≤ limits.maxDepth → bench.nfa.size ≤ limits.maxNfaStates →
    Outcome limits bench levels states result (work bench)

theorem takes_pure {value : α} (holds : result value) : Takes limits (pure value) 0 0 result := by
  intro bench shallow room
  exact .done shallow room rfl rfl holds

theorem Takes.bind (first : Takes limits work levels states result)
    (second : ∀ value, result value → Takes limits (next value) more moreStates final) :
    Takes limits (work >>= next) (max levels more) (states + moreStates) final := by
  intro bench shallow room
  rw [bind_apply]
  generalize made : work bench = outcome
  have given := first bench shallow room
  rw [made] at given
  cases given with
  | done shallowToo roomToo grown level holds =>
      rename_i value middle
      dsimp only
      generalize madeToo : next value middle = outcome
      have rest := second value holds middle (by omega) (by omega)
      rw [madeToo] at rest
      cases rest with
      | done shallowLast roomLast grownToo levelToo holds =>
          exact .done (by omega) (by omega) (by omega) (by omega) holds
      | tooDeep deep => exact .tooDeep (by omega)
      | full full => exact .full (by omega)
  | tooDeep deep => exact .tooDeep (by omega)
  | full full => exact .full (by omega)

theorem Takes.mono {weaker : α → Prop} (takes : Takes limits work levels states result)
    (holds : ∀ value, result value → weaker value) : Takes limits work levels states weaker := by
  intro bench shallow room
  generalize made : work bench = outcome
  have given := takes bench shallow room
  rw [made] at given
  cases given with
  | done shallowToo roomToo grown level known =>
      exact .done shallowToo roomToo grown level (holds _ known)
  | tooDeep deep => exact .tooDeep deep
  | full full => exact .full full

end Work

namespace Fragment

open Work (Takes takes_pure)

variable {limits : Limits} {levels states : Nat} {work : Work Fragment}

theorem takes_newState : Takes limits (newState limits) 0 1 fun _ => True := by
  intro bench shallow room
  rw [newState]
  split
  · exact .done (by omega) (by omega) (by simp) rfl trivial
  · have last : bench.nfa.size = limits.maxNfaStates := by omega
    rw [last]
    exact .full (by omega)

theorem takes_connect (source : Nat) (label : Option Token) (target : Nat) :
    Takes limits (connect source label target) 0 0 fun _ => True := by
  intro bench shallow room
  rw [connect_apply]
  exact .done shallow room (by simp) rfl trivial

theorem takes_ends : Takes limits (ends limits) 0 2 fun _ => True :=
  takes_newState.bind fun _ _ => takes_newState.bind fun _ _ => takes_pure trivial

theorem takes_single (label : Option Token) :
    Takes limits (single limits label) 0 2 fun _ => True :=
  takes_ends.bind fun _ _ => (takes_connect _ _ _).bind fun _ _ => takes_pure trivial

theorem takes_concat (left right : Fragment) :
    Takes limits (concat left right) 0 0 fun _ => True :=
  (takes_connect _ _ _).bind fun _ _ => takes_pure trivial

theorem takes_append (before : Option Fragment) (next : Fragment) :
    Takes limits (append before next) 0 0 fun _ => True := by
  cases before with
  | none => exact takes_pure trivial
  | some before => exact takes_concat before next

theorem takes_union (left right : Fragment) :
    Takes limits (union limits left right) 0 2 fun _ => True :=
  takes_ends.bind fun _ _ => (takes_connect _ _ _).bind fun _ _ =>
    (takes_connect _ _ _).bind fun _ _ => (takes_connect _ _ _).bind fun _ _ =>
      (takes_connect _ _ _).bind fun _ _ => takes_pure trivial

theorem takes_optional (inner : Fragment) :
    Takes limits (optional limits inner) 0 2 fun _ => True :=
  takes_ends.bind fun _ _ => (takes_connect _ _ _).bind fun _ _ =>
    (takes_connect _ _ _).bind fun _ _ => (takes_connect _ _ _).bind fun _ _ => takes_pure trivial

theorem takes_star (inner : Fragment) : Takes limits (star limits inner) 0 2 fun _ => True :=
  (takes_optional inner).bind fun _ _ => (takes_connect _ _ _).bind fun _ _ => takes_pure trivial

theorem takes_nested (inner : Takes limits work levels states fun _ => True) :
    Takes limits (nested limits work) (1 + levels) states fun _ => True := by
  intro bench shallow room
  rw [nested]
  split
  · generalize made : work { bench with depth := bench.depth + 1 } = outcome
    have given := inner { bench with depth := bench.depth + 1 } (by dsimp only; omega) room
    rw [made] at given
    cases given with
    | done shallowToo roomToo grown level =>
        dsimp only at shallowToo roomToo grown level ⊢
        exact .done (by omega) roomToo grown (by dsimp only; omega) trivial
    | tooDeep deep =>
        dsimp only at deep
        exact .tooDeep (by omega)
    | full full => exact .full full
  · exact .tooDeep (by omega)

section Parts

variable {ι : Type} {part : ι → Work Fragment} {depth size : ι → Nat} {indices : List ι}

theorem takes_appendAll
    (each : ∀ i ∈ indices, Takes limits (part i) (depth i) (size i) fun _ => True)
    (before : Option Fragment) :
    Takes limits (appendAll (indices.map part) before) (Pattern.greatest (indices.map depth))
      (indices.map size).sum
      fun whole => (whole.isSome = true ↔ before.isSome = true ∨ indices ≠ []) := by
  induction indices generalizing before with
  | nil => exact takes_pure (by simp)
  | cons i indices ih =>
      obtain ⟨here, later⟩ := List.forall_mem_cons.mp each
      have rest : ∀ whole, Takes limits (appendAll (indices.map part) (some whole))
          (Pattern.greatest (indices.map depth)) (indices.map size).sum
          fun whole => (whole.isSome = true ↔ before.isSome = true ∨ i :: indices ≠ []) :=
        fun whole => (ih later (some whole)).mono (by simp)
      have all := here.bind fun next _ => (takes_append before next).bind fun whole _ => rest whole
      simpa [appendAll, Pattern.greatest] using all

theorem takes_unionAll
    (each : ∀ i ∈ indices, Takes limits (part i) (depth i) (size i) fun _ => True)
    (before : Fragment) :
    Takes limits (unionAll limits (indices.map part) (some before))
      (Pattern.greatest (indices.map depth)) ((indices.map size).sum + 2 * indices.length)
      fun whole => whole.isSome = true := by
  induction indices generalizing before with
  | nil => exact takes_pure rfl
  | cons i indices ih =>
      obtain ⟨here, later⟩ := List.forall_mem_cons.mp each
      have all := here.bind fun next _ => (takes_union before next).bind fun whole _ =>
        ih later whole
      have sizes : size i + (2 + ((indices.map size).sum + 2 * indices.length)) =
          ((i :: indices).map size).sum + 2 * (i :: indices).length := by
        simp only [List.map_cons, List.sum_cons, List.length_cons]
        omega
      rw [sizes] at all
      simpa [unionAll, Pattern.greatest] using all

theorem takes_unionAll_none {first : ι}
    (each : ∀ i ∈ first :: indices, Takes limits (part i) (depth i) (size i) fun _ => True) :
    Takes limits (unionAll limits ((first :: indices).map part) none)
      (Pattern.greatest ((first :: indices).map depth))
      (((first :: indices).map size).sum + 2 * ((first :: indices).length - 1))
      fun whole => whole.isSome = true := by
  obtain ⟨here, later⟩ := List.forall_mem_cons.mp each
  have all := here.bind fun next _ => takes_unionAll later next
  simpa [unionAll, Pattern.greatest, add_assoc] using all

theorem takes_orThrow {whole : Work (Option Fragment)}
    (takes : Takes limits whole levels states fun fragment => fragment.isSome = true) (e : Error) :
    Takes limits (do orElse (← whole) (throw e)) levels states fun _ => True := by
  have given : ∀ fragment : Option Fragment, fragment.isSome = true →
      Takes limits (orElse fragment (throw e)) 0 0 fun _ => True := by
    intro fragment present
    obtain ⟨some, rfl⟩ := Option.isSome_iff_exists.mp present
    exact takes_pure trivial
  simpa using takes.bind given

theorem takes_sequence (some : indices ≠ [])
    (each : ∀ i ∈ indices, Takes limits (part i) (depth i) (size i) fun _ => True) (e : Error) :
    Takes limits (do orElse (← appendAll (indices.map part) none) (throw e))
      (Pattern.greatest (indices.map depth)) (indices.map size).sum fun _ => True :=
  takes_orThrow ((takes_appendAll each none).mono fun _ made => made.mpr (Or.inr some)) e

theorem takes_alternative (some : indices ≠ [])
    (each : ∀ i ∈ indices, Takes limits (part i) (depth i) (size i) fun _ => True) (e : Error) :
    Takes limits (do orElse (← unionAll limits (indices.map part) none) (throw e))
      (Pattern.greatest (indices.map depth))
      ((indices.map size).sum + 2 * (indices.length - 1)) fun _ => True := by
  obtain ⟨first, indices, rfl⟩ := List.exists_cons_of_ne_nil some
  exact takes_orThrow (takes_unionAll_none each) e

end Parts

theorem takes_checkBound (kind : Quantifier) {bound : Nat} (within : bound ≤ limits.maxBound) :
    Takes limits (checkBound limits kind bound) 0 0 fun _ => True := by
  rw [checkBound, if_pos within]
  exact takes_pure trivial

theorem takes_orElse {part? : Option Fragment} {count : Nat}
    (made : part?.isSome = true ↔ count ≠ 0) :
    Takes limits (orElse part? (single limits none)) 0 (if count = 0 then 2 else 0) fun _ => True := by
  cases part? with
  | none =>
      have nothing : count = 0 := by simpa using made
      rw [if_pos nothing]
      exact takes_single none
  | some part =>
      have something : count ≠ 0 := by simpa using made
      rw [if_neg something]
      exact takes_pure trivial

section Repeated

variable (child : Takes limits work levels states fun _ => True)

include child

theorem takes_appendTimes (count : Nat) (before : Option Fragment) :
    Takes limits (appendTimes work count before) (if count = 0 then 0 else levels) (count * states)
      fun whole => (whole.isSome = true ↔ before.isSome = true ∨ count ≠ 0) := by
  induction count generalizing before with
  | zero =>
      rw [Nat.zero_mul]
      exact takes_pure (by simp)
  | succ count ih =>
      have rest : ∀ whole, Takes limits (appendTimes work count (some whole))
          (if count = 0 then 0 else levels) (count * states)
          fun whole => (whole.isSome = true ↔ before.isSome = true ∨ count + 1 ≠ 0) :=
        fun whole => (ih (some whole)).mono (by simp)
      have all := child.bind fun next _ => (takes_append before next).bind fun whole _ => rest whole
      have deepest : max levels (max 0 (if count = 0 then 0 else levels)) = levels := by
        split <;> omega
      have sum : states + (0 + count * states) = (count + 1) * states := by
        rw [Nat.zero_add, Nat.succ_mul, Nat.add_comm]
      rw [deepest, sum] at all
      simpa [appendTimes] using all

theorem takes_optional_child :
    Takes limits (do optional limits (← work)) levels (states + 2) fun _ => True := by
  simpa using child.bind fun inner _ => takes_optional inner

theorem takes_exactly {n : Nat} (within : n ≤ limits.maxBound) :
    Takes limits (repeated limits work .exactly (some (.count n)))
      (if n = 0 then 0 else levels) (if n = 0 then 2 else n * states) fun _ => True := by
  have all := (takes_checkBound .exactly within).bind fun _ _ =>
    (takes_appendTimes child n none).bind fun whole made =>
      takes_orElse (by simpa using made)
  by_cases none : n = 0
  · simpa [repeated, none] using all
  · simpa [repeated, none] using all

theorem takes_atLeast {n : Nat} (within : n ≤ limits.maxBound) :
    Takes limits (repeated limits work .atLeast (some (.count n)))
      levels ((n + 1) * states + 2) fun _ => True := by
  have all := (takes_checkBound .atLeast within).bind fun _ _ =>
    (takes_appendTimes child n none).bind fun before _ =>
      child.bind fun inner _ => (takes_star inner).bind fun last _ => takes_append before last
  have deepest : max (if n = 0 then 0 else levels) levels = levels := by
    split <;> omega
  have sum : n * states + (states + 2) = (n + 1) * states + 2 := by
    rw [Nat.succ_mul, Nat.add_assoc]
  simpa [repeated, deepest, sum] using all

theorem takes_between {least most : Nat} (ordered : least ≤ most) (within : most ≤ limits.maxBound) :
    Takes limits (repeated limits work .between (some (.range least most)))
      (if most = 0 then 0 else levels)
      (if most = 0 then 2 else most * states + 2 * (most - least)) fun _ => True := by
  -- states of its own are needed only where neither loop has made a copy
  have ending : ∀ before whole : Option Fragment,
      (before.isSome = true ↔ (none : Option Fragment).isSome = true ∨ least ≠ 0) →
      (whole.isSome = true ↔ before.isSome = true ∨ most - least ≠ 0) →
      Takes limits (orElse whole (single limits none)) 0 (if most = 0 then 2 else 0)
        fun _ => True := by
    intro before whole given made
    apply takes_orElse
    rw [made, given]
    simp only [Option.isSome_none, Bool.false_eq_true, false_or]
    omega
  have all := (takes_checkBound .between within).bind fun _ _ =>
    (takes_appendTimes child least none).bind fun before given =>
      (takes_appendTimes (takes_optional_child child) (most - least) before).bind
        fun whole made => ending before whole given made
  have levels_eq : max (if least = 0 then 0 else levels)
      (max (if most - least = 0 then 0 else levels) 0) = if most = 0 then 0 else levels := by
    split_ifs <;> omega
  have sum : least * states + ((most - least) * (states + 2) + if most = 0 then 2 else 0) =
      if most = 0 then 2 else most * states + 2 * (most - least) := by
    obtain ⟨more, rfl⟩ := Nat.exists_eq_add_of_le ordered
    split
    · simp_all
    · rw [Nat.add_sub_cancel_left]
      ring
  rw [levels_eq, sum, Nat.max_eq_right (Nat.zero_le _), Nat.zero_add] at all
  rw [repeated, if_neg (Nat.not_lt.mpr ordered)]
  exact all

theorem takes_repeated {kind : Quantifier} {bound : Option Bound}
    (suits : Pattern.Suits limits kind bound) :
    Takes limits (repeated limits work kind bound)
      (if Pattern.copies kind bound = 0 then 0 else levels)
      (Pattern.repeatedSize states kind bound) fun _ => True := by
  match kind, bound with
  | .maybe, none => exact takes_optional_child child
  | .option, none => exact takes_optional_child child
  | .exactly, some (.count n) => exact takes_exactly child suits
  | .atLeast, some (.count n) => exact takes_atLeast child suits
  | .between, some (.range least most) => exact takes_between child suits.1 suits.2
  | .maybe, some _ => cases suits
  | .option, some _ => cases suits
  | .exactly, none => cases suits
  | .atLeast, none => cases suits
  | .between, none => cases suits
  | .exactly, some (.range _ _) => cases suits
  | .atLeast, some (.range _ _) => cases suits
  | .between, some (.count _) => cases suits

end Repeated

theorem takes_repeated_none {kind : Quantifier} {bound : Option Bound}
    (suits : Pattern.Suits limits kind bound) (none : Pattern.copies kind bound = 0) :
    Takes limits (repeated limits work kind bound) 0 (Pattern.repeatedSize states kind bound)
      fun _ => True := by
  match kind, bound with
  | .exactly, some (.count n) =>
      obtain rfl : n = 0 := none
      exact takes_exactly (takes_single .none) suits
  | .between, some (.range least most) =>
      obtain rfl : most = 0 := none
      obtain rfl : least = 0 := Nat.le_zero.mp suits.1
      exact takes_between (takes_single .none) suits.1 suits.2
  | .exactly, some (.range _ _) => cases suits
  | .between, some (.count _) => cases suits
  | .exactly, .none => cases suits
  | .between, .none => cases suits
  | .atLeast, .none => cases suits
  | .atLeast, some (.range _ _) => cases suits

end Fragment

namespace Pattern

open Work (Takes)

variable {limits : Limits}

theorem inSequence_plan (limits : Limits) (p : Pattern) :
    (p.plan limits).inSequence = (p.operands .sequence).map (build limits) := by
  induction p with
  | terminal base token => rfl
  | sequence left right ihl ihr => simp [plan, operands, ihl, ihr]
  | alternative left right ihl ihr => rfl
  | quantified child kind bound ih => rfl

theorem inAlternative_plan (limits : Limits) (p : Pattern) :
    (p.plan limits).inAlternative = (p.operands .alternative).map (build limits) := by
  induction p with
  | terminal base token => rfl
  | sequence left right ihl ihr => rfl
  | alternative left right ihl ihr => simp [plan, operands, ihl, ihr]
  | quantified child kind bound ih => rfl

theorem build_sequence (limits : Limits) (left right : Pattern) :
    (sequence left right).build limits = Fragment.nested limits (do
      let operands := (unstack .sequence [] [sequence left right]).map (build limits)
      Fragment.orElse (← Fragment.appendAll operands none)
        (throw (.construction .emptyGroup))) := by
  rw [unstack_eq, List.nil_append, List.flatMap_singleton, ← inSequence_plan]
  rfl

theorem build_alternative (limits : Limits) (left right : Pattern) :
    (alternative left right).build limits = Fragment.nested limits (do
      let operands := (unstack .alternative [] [alternative left right]).map (build limits)
      Fragment.orElse (← Fragment.unionAll limits operands none)
        (throw (.construction .emptyGroup))) := by
  rw [unstack_eq, List.nil_append, List.flatMap_singleton, ← inAlternative_plan]
  rfl

def Fits (limits : Limits) (p : Pattern) : Prop :=
  Takes limits (p.build limits) p.depth p.size fun _ => True

theorem fits_sequence {left right : Pattern}
    (each : ∀ p ∈ (sequence left right).operands .sequence, p.Fits limits) :
    (sequence left right).Fits limits := by
  have takes := Fragment.takes_nested (Fragment.takes_sequence
    (operands_ne_nil .sequence (sequence left right)) each (.construction .emptyGroup))
  rw [← depth_sequence, sum_size_operands, ← inSequence_plan] at takes
  exact takes

theorem fits_alternative {left right : Pattern}
    (each : ∀ p ∈ (alternative left right).operands .alternative, p.Fits limits) :
    (alternative left right).Fits limits := by
  have takes := Fragment.takes_nested (Fragment.takes_alternative
    (operands_ne_nil .alternative (alternative left right)) each (.construction .emptyGroup))
  rw [← depth_alternative, sum_size_operands_add, ← inAlternative_plan] at takes
  exact takes

/-- A chain fits as soon as both of its sides do, wherever it is cut in two. -/
theorem fits_chain {whole left right : Pattern} (chain : Chain)
    (joined : whole.operands chain = left.operands chain ++ right.operands chain)
    (apart : ∀ other, other ≠ chain → whole.operands other = [whole])
    (fits : (∀ p ∈ whole.operands chain, p.Fits limits) → whole.Fits limits)
    (leftFits : ∀ chain, ∀ p ∈ left.operands chain, p.Fits limits)
    (rightFits : ∀ chain, ∀ p ∈ right.operands chain, p.Fits limits) :
    whole.Fits limits ∧ ∀ chain, ∀ p ∈ whole.operands chain, p.Fits limits := by
  have chained : ∀ p ∈ whole.operands chain, p.Fits limits := by
    intro p present
    rw [joined] at present
    rcases List.mem_append.mp present with inLeft | inRight
    · exact leftFits chain p inLeft
    · exact rightFits chain p inRight
  refine ⟨fits chained, ?_⟩
  intro other
  by_cases same : other = chain
  · rw [same]
    exact chained
  · rw [apart other same]
    simpa using fits chained

theorem fits_operands {p : Pattern} (consistent : p.ConsistentAsBuilt limits) :
    p.Fits limits ∧ ∀ chain, ∀ q ∈ p.operands chain, q.Fits limits := by
  induction p with
  | terminal base token =>
      have whole : (terminal base token).Fits limits :=
        Fragment.takes_nested (Fragment.takes_single (some token))
      refine ⟨whole, ?_⟩
      intro chain
      simpa [operands] using whole
  | sequence left right ihl ihr =>
      apply fits_chain .sequence rfl _ fits_sequence (ihl consistent.1).2 (ihr consistent.2).2
      intro other differs
      cases other with
      | sequence => exact absurd rfl differs
      | alternative => rfl
  | alternative left right ihl ihr =>
      apply fits_chain .alternative rfl _ fits_alternative (ihl consistent.1).2 (ihr consistent.2).2
      intro other differs
      cases other with
      | sequence => rfl
      | alternative => exact absurd rfl differs
  | quantified child kind bound ih =>
      have whole : (quantified child kind bound).Fits limits := by
        rw [Fits, depth_quantified]
        by_cases none : copies kind bound = 0
        · rw [if_pos none]
          exact Fragment.takes_nested (Fragment.takes_repeated_none consistent.2 none)
        · have takes := Fragment.takes_nested
            (Fragment.takes_repeated (ih (consistent.1 none)).1 consistent.2)
          rw [if_neg none] at takes ⊢
          exact takes
      refine ⟨whole, ?_⟩
      intro chain
      simpa [operands] using whole

theorem toNfa_cases {p : Pattern} (consistent : p.ConsistentAsBuilt limits) :
    (∃ n, p.toNfa limits = .ok n ∧ n.size = p.size ∧ p.depth ≤ limits.maxDepth ∧
      p.size ≤ limits.maxNfaStates) ∨
    (p.toNfa limits = .error (.specification (.tooDeep limits.maxDepth)) ∧
      limits.maxDepth < p.depth) ∨
    (p.toNfa limits = .error (.automatonLimit limits.maxNfaStates (limits.maxNfaStates + 1)) ∧
      limits.maxNfaStates < p.size) := by
  have given := (fits_operands consistent).1 ⟨.empty, 0⟩ (Nat.zero_le _) (Nat.zero_le _)
  have nothing : Nfa.empty.size = 0 := rfl
  rw [toNfa]
  generalize p.build limits ⟨.empty, 0⟩ = outcome at given
  cases given with
  | done shallow room grown =>
      dsimp only at shallow room grown
      refine Or.inl ⟨_, rfl, ?_, by omega, by omega⟩
      rw [nothing, Nat.zero_add] at grown
      exact grown
  | tooDeep deep =>
      dsimp only at deep
      exact Or.inr (Or.inl ⟨rfl, by omega⟩)
  | full full =>
      dsimp only at full
      exact Or.inr (Or.inr ⟨rfl, by omega⟩)

/-- A consistent pattern is turned into an automaton where its depth and its size are within the
limits; the automaton has that size, and a limit that is exceeded is what it fails by. -/
theorem toNfa_room {p : Pattern} (consistent : p.Consistent limits) :
    ((∃ n, p.toNfa limits = .ok n) ↔ p.depth ≤ limits.maxDepth ∧ p.size ≤ limits.maxNfaStates) ∧
    (∀ n, p.toNfa limits = .ok n → n.size = p.size) ∧
    ∀ e, p.toNfa limits = .error e →
      e = .specification (.tooDeep limits.maxDepth) ∧ limits.maxDepth < p.depth ∨
      e = .automatonLimit limits.maxNfaStates (limits.maxNfaStates + 1) ∧
        limits.maxNfaStates < p.size := by
  rcases toNfa_cases consistent.asBuilt with
    ⟨n, built, size, shallow, room⟩ | ⟨failed, deep⟩ | ⟨failed, full⟩
  · simp [built, size, shallow, room]
  · simp [failed, deep]
  · simp [failed, full]

theorem session_room : session.Consistent ⟨8, 1, 0, 3⟩ ∧ session.Consistent ⟨7, 1, 0, 3⟩ ∧
    session.depth = 3 ∧ session.size = 8 ∧
    (∃ n, session.toNfa ⟨8, 1, 0, 3⟩ = .ok n ∧ n.size = 8) ∧
    session.toNfa ⟨7, 1, 0, 3⟩ = .error (.automatonLimit 7 8) := by
  have depth : session.depth = 3 := rfl
  have size : session.size = 8 := rfl
  have consistent : ∀ states, session.Consistent ⟨states, 1, 0, 3⟩ := by
    intro states
    simp [session, Consistent, Suits]
  obtain ⟨enough, exact, _⟩ := toNfa_room (consistent 8)
  obtain ⟨n, built⟩ := enough.mpr ⟨depth.le, size.le⟩
  obtain ⟨few, _, failed⟩ := toNfa_room (consistent 7)
  have fails : session.toNfa ⟨7, 1, 0, 3⟩ = .error (.automatonLimit 7 8) := by
    cases made : session.toNfa ⟨7, 1, 0, 3⟩ with
    | ok m => exact absurd (few.mp ⟨m, made⟩).2 (by decide)
    | error e =>
        rcases failed e made with ⟨_, deep⟩ | ⟨rfl, _⟩
        · exact absurd deep (by decide)
        · rfl
  exact ⟨consistent 8, consistent 7, depth, size, ⟨n, built, (exact n built).trans size⟩, fails⟩

end Pattern

end CallOrder
