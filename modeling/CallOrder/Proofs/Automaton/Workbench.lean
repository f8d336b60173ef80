import CallOrder.Proofs.Automaton.Building
import CallOrder.Proofs.Compilation

/-!
What building a pattern leaves on the workbench. Main statement: success adds one fragment beside
what is there, held together by edges of its own, and the depth is the same again, after a failure
too.
-/

namespace CallOrder

namespace Nfa

/-- `after` has an edge from the one state to the other that `before` has not. -/
def Gained (after before : Nfa) (source target : Nat) : Prop :=
  ∃ label, ⟨label, target⟩ ∈ after.edges source ∧ ⟨label, target⟩ ∉ before.edges source

namespace Extends

variable {before after : Nfa} {source target : Nat}

theorem gained_iff (kept : after.Extends before before.size) :
    after.Gained before source target ↔
      source ∈ Set.Ico before.size after.size ∧ ∃ label, ⟨label, target⟩ ∈ after.edges source := by
  constructor
  · intro gained
    rcases gained with ⟨label, present, absent⟩
    have new : before.size ≤ source := by
      by_contra old
      rw [kept.edges_eq source (by omega)] at present
      exact absent present
    have below : source < after.size := by
      by_contra beyond
      rw [edges_outside (by omega)] at present
      exact List.not_mem_nil present
    exact ⟨⟨new, below⟩, label, present⟩
  · intro given
    rcases given with ⟨⟨new, _⟩, label, present⟩
    refine ⟨label, present, ?_⟩
    rw [edges_outside new]
    exact List.not_mem_nil

theorem gained_of_reads (kept : after.Extends before before.size) {word : List Token}
    (closed : ∀ state ∈ Set.Ico before.size after.size, ∀ edge ∈ after.edges state,
      edge.target ∈ Set.Ico before.size after.size)
    (new : source ∈ Set.Ico before.size after.size) (reads : after.Reads source word target) :
    Relation.ReflTransGen (after.Gained before) source target := by
  induction reads with
  | done => exact Relation.ReflTransGen.refl
  | silent edge _ ih =>
      have gained := kept.gained_iff.mpr ⟨new, _, edge⟩
      exact Relation.ReflTransGen.head gained (ih (closed _ new _ edge))
  | token edge _ ih =>
      have gained := kept.gained_iff.mpr ⟨new, _, edge⟩
      exact Relation.ReflTransGen.head gained (ih (closed _ new _ edge))

end Extends

end Nfa

/-- `after` is `before` with new states, among them the two ends of the fragment, and with edges
between new states, along which the start leads to each of them and each of them to the exit. -/
structure Fragment.Appended (part : Fragment) (before after : Nfa) : Prop where
  size_le : before.size + 2 ≤ after.size
  edges_eq : ∀ state < before.size, after.edges state = before.edges state
  inside : ∀ source target, after.Gained before source target →
    source ∈ Set.Ico before.size after.size ∧ target ∈ Set.Ico before.size after.size
  start_mem : part.start ∈ Set.Ico before.size after.size
  accept_mem : part.accept ∈ Set.Ico before.size after.size
  distinct : part.start ≠ part.accept
  start_free : ∀ source, ¬ after.Gained before source part.start
  accept_free : after.edges part.accept = []
  reachable : ∀ state ∈ Set.Ico before.size after.size,
    Relation.ReflTransGen (after.Gained before) part.start state
  productive : ∀ state ∈ Set.Ico before.size after.size,
    Relation.ReflTransGen (after.Gained before) state part.accept

theorem Fragment.Spans.appended {part : Fragment} {before after : Nfa} {words : Language Token}
    (kept : after.Extends before before.size)
    (spans : part.Spans after before.size after.size words) : part.Appended before after := by
  have start := spans.start_mem
  have accept := spans.accept_mem
  have distinct := spans.distinct
  have room : before.size + 2 ≤ after.size := by
    rw [Set.mem_Ico] at start accept
    omega
  refine ⟨room, kept.edges_eq, ?_, start, accept, distinct, ?_, spans.accept_free, ?_, ?_⟩
  · intro source target gained
    obtain ⟨new, label, present⟩ := kept.gained_iff.mp gained
    exact ⟨new, spans.closed source new _ present⟩
  · intro source gained
    obtain ⟨new, label, present⟩ := kept.gained_iff.mp gained
    exact spans.start_free source new _ present rfl
  · intro state new
    obtain ⟨word, reads⟩ := spans.reads_from new
    exact kept.gained_of_reads spans.closed start reads
  · intro state new
    obtain ⟨word, reads⟩ := spans.reads_to new
    exact kept.gained_of_reads spans.closed new reads

/-- Nothing but states and edges has been changed. -/
structure Workbench.SameFrame (before after : Workbench) : Prop where
  depth : after.depth = before.depth
  start : after.nfa.start = before.nfa.start
  accept : after.nfa.accept = before.nfa.accept

namespace Workbench.SameFrame

theorem refl (bench : Workbench) : bench.SameFrame bench :=
  ⟨rfl, rfl, rfl⟩

theorem trans {before middle after : Workbench} (first : before.SameFrame middle)
    (second : middle.SameFrame after) : before.SameFrame after :=
  ⟨second.depth.trans first.depth, second.start.trans first.start,
    second.accept.trans first.accept⟩

end Workbench.SameFrame

namespace Work

variable {limits : Limits}

def KeepsFrame : Work.Relation := fun _ work _ =>
  ∀ bench : Workbench, bench.SameFrame (work bench).2

theorem keepsFrame_bind {α β : Type} {work other : Work α} {next otherNext : α → Work β}
    (first : KeepsFrame α work other)
    (rest : ∀ value, KeepsFrame β (next value) (otherNext value)) :
    KeepsFrame β (work >>= next) (other >>= otherNext) := by
  intro bench
  have given := first bench
  rw [bind_apply]
  generalize work bench = outcome at given
  rcases outcome with ⟨e | value, middle⟩
  · exact given
  · exact given.trans (rest value middle)

theorem keepsFrame_newState :
    KeepsFrame Nat (Fragment.newState limits) (Fragment.newState limits) := by
  intro bench
  rw [Fragment.newState]
  split
  · exact ⟨rfl, rfl, rfl⟩
  · exact .refl bench

theorem keepsFrame_checkBound (kind : Quantifier) (bound : Nat) :
    KeepsFrame Unit (Fragment.checkBound limits kind bound)
      (Fragment.checkBound limits kind bound) := by
  intro bench
  rw [Fragment.checkBound]
  split
  · exact .refl bench
  · exact .refl bench

theorem keepsFrame_nested {work other : Work Fragment} (inner : KeepsFrame Fragment work other) :
    KeepsFrame Fragment (Fragment.nested limits work) (Fragment.nested limits other) := by
  intro bench
  rw [Fragment.nested]
  split
  · obtain ⟨deeper, start, accept⟩ := inner { bench with depth := bench.depth + 1 }
    exact ⟨Nat.sub_eq_of_eq_add deeper, start, accept⟩
  · exact .refl bench

theorem keepsFrame_respected (limits : Limits) : KeepsFrame.Respected limits limits where
  done _ bench := .refl bench
  bind := keepsFrame_bind
  construction _ bench := .refl bench
  specification _ _ bench := .refl bench
  newState := keepsFrame_newState
  connect _ _ _ _ := ⟨rfl, rfl, rfl⟩
  checkBound := keepsFrame_checkBound
  nested := keepsFrame_nested

end Work

namespace Pattern

/-- Whatever lies on the workbench, building a pattern changes nothing but states and edges, and
where it succeeds, it leaves those that are there and adds a fragment of its own. -/
theorem build_appends (limits : Limits) (p : Pattern) (bench : Workbench) :
    bench.SameFrame (p.build limits bench).2 ∧
    ∀ whole after, p.build limits bench = (.ok whole, after) →
      whole.Appended bench.nfa after.nfa := by
  constructor
  · exact build_related (Work.keepsFrame_respected limits) p bench
  · intro whole after built
    obtain ⟨kept, spans⟩ := (p.plan_denotes limits).whole built
    exact spans.appended kept

def begun : Workbench := ⟨⟨#[[⟨none, 0⟩, ⟨some "open", 4⟩]], 0, 7⟩, 3⟩

theorem session_appended : ∃ after, session.build .standard begun = (.ok ⟨1, 8⟩, after) ∧
    after.depth = 3 ∧ (⟨1, 8⟩ : Fragment).Appended begun.nfa after.nfa ∧
    (session.build ⟨6, 0, 0, 9⟩ begun).1 = .error (.automatonLimit 6 7) ∧
    (session.build ⟨6, 0, 0, 9⟩ begun).2.depth = 3 := by
  have built : (session.build .standard begun).1 = .ok ⟨1, 8⟩ := by decide +kernel
  have stops : (session.build ⟨6, 0, 0, 9⟩ begun).1 = .error (.automatonLimit 6 7) := by
    decide +kernel
  obtain ⟨frame, appends⟩ := build_appends .standard session begun
  obtain ⟨frameToo, _⟩ := build_appends ⟨6, 0, 0, 9⟩ session begun
  rcases outcome : session.build .standard begun with ⟨result, after⟩
  rw [outcome] at built frame
  subst built
  exact ⟨after, rfl, frame.depth, appends _ _ outcome, stops, frameToo.depth⟩

end Pattern

end CallOrder
