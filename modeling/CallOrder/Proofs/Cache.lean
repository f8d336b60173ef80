import CallOrder.Check.Ordered
import CallOrder.Proofs.Lists
import CallOrder.Proofs.Ordered
import Mathlib.Data.List.Induction

/-! A cache answers as compiling anew does, whatever it has been asked for before, and so do the
verdicts that are passed by way of it. -/

namespace CallOrder

namespace Cache

inductive Request where
  | compile (p : Pattern)
  | clear
  deriving DecidableEq, Repr

def after (c : Cache) : Request → Cache
  | .compile p => (c.compile p).2
  | .clear => c.clear

def ofRequests (limits : Limits) (requests : List Request) : Cache :=
  requests.foldl after (.empty limits)

/-- The pattern has been asked for with success since the cache was cleared last. -/
def Remembered (limits : Limits) (requests : List Request) (p : Pattern) : Prop :=
  ∃ before later, requests = before ++ .compile p :: later ∧ .clear ∉ later ∧
    ∃ dfa, ((ofRequests limits before).compile p).1 = .ok dfa

variable {c : Cache} {limits : Limits} {requests : List Request} {p q : Pattern} {dfa : Dfa}

theorem compile_cases (c : Cache) (p : Pattern) :
    (∃ dfa, c.find? p = some dfa ∧ c.compile p = (.ok dfa, { c with hits := c.hits + 1 })) ∨
    c.find? p = none ∧
      ((∃ dfa, p.compile c.limits = .ok dfa ∧ c.compile p =
        (.ok dfa, { c with misses := c.misses + 1, entries := (p, dfa) :: c.entries })) ∨
      ∃ e, p.compile c.limits = .error e ∧
        c.compile p = (.error e, { c with misses := c.misses + 1 })) := by
  rw [compile]
  cases found : c.find? p with
  | some dfa => exact Or.inl ⟨dfa, rfl, rfl⟩
  | none =>
      cases compiled : p.compile c.limits with
      | ok dfa => exact Or.inr ⟨rfl, Or.inl ⟨dfa, rfl, rfl⟩⟩
      | error e => exact Or.inr ⟨rfl, Or.inr ⟨e, rfl, rfl⟩⟩

/-- Every pattern has one entry at most, and that is what the pattern is compiled to. -/
structure Faithful (c : Cache) : Prop where
  distinct : (c.entries.map (·.1)).Nodup
  compiled : ∀ p dfa, (p, dfa) ∈ c.entries → p.compile c.limits = .ok dfa

theorem mem_of_find? (found : c.find? p = some dfa) : (p, dfa) ∈ c.entries := by
  obtain ⟨⟨q, _⟩, first, rfl⟩ := Option.map_eq_some_iff.mp found
  have same : q = p := by simpa using List.find?_some first
  exact same ▸ List.mem_of_find?_eq_some first

theorem not_mem_of_find? (missing : c.find? p = none) (dfa : Dfa) : (p, dfa) ∉ c.entries := by
  intro present
  have differs := List.find?_eq_none.mp (Option.map_eq_none_iff.mp missing) _ present
  simp at differs

theorem Faithful.compile_fst (faithful : c.Faithful) (p : Pattern) :
    (c.compile p).1 = p.compile c.limits := by
  rcases c.compile_cases p with ⟨dfa, found, asked⟩ | ⟨_, ⟨dfa, compiled, asked⟩ | ⟨e, failed, asked⟩⟩
  · rw [asked, faithful.compiled p dfa (mem_of_find? found)]
  · rw [asked, compiled]
  · rw [asked, failed]

theorem limits_after (c : Cache) (request : Request) : (c.after request).limits = c.limits := by
  cases request with
  | clear => rfl
  | compile p =>
      rw [after]
      rcases c.compile_cases p with ⟨dfa, _, asked⟩ | ⟨_, ⟨dfa, _, asked⟩ | ⟨e, _, asked⟩⟩
      all_goals rw [asked]

theorem Faithful.after (faithful : c.Faithful) (request : Request) :
    (c.after request).Faithful := by
  cases request with
  | clear => exact ⟨List.nodup_nil, by simp [Cache.after, clear]⟩
  | compile p =>
      rw [Cache.after]
      rcases c.compile_cases p with
        ⟨dfa, _, asked⟩ | ⟨missing, ⟨dfa, compiled, asked⟩ | ⟨e, _, asked⟩⟩
      · rw [asked]
        exact ⟨faithful.distinct, faithful.compiled⟩
      · rw [asked]
        constructor
        · rw [List.map_cons, List.nodup_cons]
          apply And.intro _ faithful.distinct
          intro listed
          obtain ⟨⟨q, known⟩, present, rfl⟩ := List.mem_map.mp listed
          exact not_mem_of_find? missing known present
        · intro q known present
          rcases List.mem_cons.mp present with same | old
          · cases same
            exact compiled
          · exact faithful.compiled q known old
      · rw [asked]
        exact ⟨faithful.distinct, faithful.compiled⟩

theorem ofRequests_append (limits : Limits) (requests : List Request) (last : Request) :
    ofRequests limits (requests ++ [last]) = (ofRequests limits requests).after last := by
  rw [ofRequests, List.foldl_append]
  rfl

theorem limits_ofRequests (limits : Limits) (requests : List Request) :
    (ofRequests limits requests).limits = limits := by
  induction requests using List.reverseRecOn with
  | nil => rfl
  | append_singleton requests last ih => rw [ofRequests_append, limits_after, ih]

theorem ofRequests_faithful (limits : Limits) (requests : List Request) :
    (ofRequests limits requests).Faithful := by
  induction requests using List.reverseRecOn with
  | nil => exact ⟨List.nodup_nil, by simp [ofRequests, empty]⟩
  | append_singleton requests last ih =>
      rw [ofRequests_append]
      exact ih.after last

theorem compile_ofRequests (limits : Limits) (requests : List Request) (p : Pattern) :
    ((ofRequests limits requests).compile p).1 = p.compile limits := by
  rw [(ofRequests_faithful limits requests).compile_fst, limits_ofRequests]

theorem remembered_append {last : Request} : Remembered limits (requests ++ [last]) p ↔
    last ≠ .clear ∧ (Remembered limits requests p ∨
      last = .compile p ∧ ∃ dfa, p.compile limits = .ok dfa) := by
  constructor
  · rintro ⟨before, later, split, unbroken, answered⟩
    rcases concat_eq_split_iff.mp split with ⟨rfl, rfl, rfl⟩ | ⟨more, rfl, earlier⟩
    · rw [compile_ofRequests] at answered
      exact ⟨by simp, Or.inr ⟨rfl, answered⟩⟩
    · rw [List.mem_append, not_or, List.mem_singleton] at unbroken
      exact ⟨Ne.symm unbroken.2, Or.inl ⟨before, more, earlier, unbroken.1, answered⟩⟩
  · rintro ⟨unbroken, ⟨before, later, rfl, unbrokenToo, answered⟩ | ⟨rfl, answered⟩⟩
    · exact ⟨before, later ++ [last], by simp, by simp [unbrokenToo, Ne.symm unbroken], answered⟩
    · exact ⟨requests, [], rfl, by simp, by rwa [compile_ofRequests]⟩

theorem Faithful.mem_entries_compile (faithful : c.Faithful) (p q : Pattern) (dfa : Dfa) :
    (q, dfa) ∈ (c.compile p).2.entries ↔
      (q, dfa) ∈ c.entries ∨ p = q ∧ q.compile c.limits = .ok dfa := by
  rcases c.compile_cases p with
    ⟨known, found, asked⟩ | ⟨_, ⟨known, compiled, asked⟩ | ⟨e, failed, asked⟩⟩
  · have present := mem_of_find? found
    have old : p = q ∧ q.compile c.limits = .ok dfa → (q, dfa) ∈ c.entries := by
      rintro ⟨rfl, compiled⟩
      rw [faithful.compiled p known present] at compiled
      cases compiled
      exact present
    rw [asked]
    exact ⟨Or.inl, fun given => given.elim id old⟩
  · rw [asked, List.mem_cons, or_comm, Prod.mk.injEq]
    apply or_congr_right
    constructor
    · rintro ⟨rfl, rfl⟩
      exact ⟨rfl, compiled⟩
    · rintro ⟨rfl, compiledToo⟩
      rw [compiled] at compiledToo
      cases compiledToo
      exact ⟨rfl, rfl⟩
  · have nothing : ¬ (p = q ∧ q.compile c.limits = .ok dfa) := by
      rintro ⟨rfl, compiled⟩
      rw [failed] at compiled
      cases compiled
    rw [asked]
    exact (or_iff_left nothing).symm

theorem mem_entries_ofRequests (limits : Limits) (requests : List Request) (p : Pattern)
    (dfa : Dfa) : (p, dfa) ∈ (ofRequests limits requests).entries ↔
      Remembered limits requests p ∧ p.compile limits = .ok dfa := by
  induction requests using List.reverseRecOn with
  | nil => simp [ofRequests, empty, Remembered]
  | append_singleton requests last ih =>
      rw [ofRequests_append, remembered_append]
      cases last with
      | clear => simp [after, clear]
      | compile q =>
          rw [after, (ofRequests_faithful limits requests).mem_entries_compile, ih,
            limits_ofRequests]
          grind

theorem counted_ofRequests (limits : Limits) (requests : List Request) :
    (ofRequests limits requests).hits + (ofRequests limits requests).misses =
      requests.countP (· ≠ .clear) := by
  induction requests using List.reverseRecOn with
  | nil => rfl
  | append_singleton requests last ih =>
      rw [ofRequests_append, List.countP_append, ← ih]
      cases last with
      | clear => rfl
      | compile p =>
          rw [after]
          rcases (ofRequests limits requests).compile_cases p with
            ⟨dfa, _, asked⟩ | ⟨_, ⟨dfa, _, asked⟩ | ⟨e, _, asked⟩⟩
          all_goals
            simp [asked]
            omega

theorem counters_compile (limits : Limits) (requests : List Request) (p : Pattern) :
    (Remembered limits requests p →
      ((ofRequests limits requests).compile p).2.hits = (ofRequests limits requests).hits + 1 ∧
      ((ofRequests limits requests).compile p).2.misses = (ofRequests limits requests).misses) ∧
    (¬ Remembered limits requests p →
      ((ofRequests limits requests).compile p).2.hits = (ofRequests limits requests).hits ∧
      ((ofRequests limits requests).compile p).2.misses =
        (ofRequests limits requests).misses + 1) := by
  have entries := mem_entries_ofRequests limits requests p
  rcases (ofRequests limits requests).compile_cases p with ⟨dfa, found, asked⟩ | ⟨missing, failing⟩
  · have remembered := ((entries dfa).mp (mem_of_find? found)).1
    rw [asked]
    exact ⟨fun _ => ⟨rfl, rfl⟩, fun forgotten => absurd remembered forgotten⟩
  · have forgotten : ¬ Remembered limits requests p := by
      intro remembered
      obtain ⟨_, _, _, _, dfa, answered⟩ := id remembered
      rw [compile_ofRequests] at answered
      exact not_mem_of_find? missing dfa ((entries dfa).mpr ⟨remembered, answered⟩)
    apply And.intro fun remembered => absurd remembered forgotten
    intro _
    rcases failing with ⟨dfa, _, asked⟩ | ⟨e, _, asked⟩
    · rw [asked]
      exact ⟨rfl, rfl⟩
    · rw [asked]
      exact ⟨rfl, rfl⟩

end Cache

namespace Ordered

structure Task where
  rule : Ordered
  context : Context
  queries : Queries

namespace Task

def judge (task : Task) : Except Error Verdict := task.rule.judge task.context task.queries

def request (task : Task) : Cache.Request := .compile task.rule.order.root

end Task

/-- The verdicts on tasks one after the other, all by way of one cache. -/
def judgeEach (cache : Cache) : List Task → List (Except Error Verdict) × Cache
  | [] => ([], cache)
  | task :: tasks =>
    let (verdict, cache) := task.rule.judgeCached cache task.context task.queries
    let (verdicts, cache) := judgeEach cache tasks
    (verdict :: verdicts, cache)

theorem judgeCached_eq {rule : Ordered} {cache : Cache} (faithful : cache.Faithful)
    (same : rule.settings.limits = cache.limits) (context : Context) (q : Queries) :
    rule.judgeCached cache context q =
      (rule.judge context q, cache.after (.compile rule.order.root)) := by
  have answer := faithful.compile_fst rule.order.root
  rw [judgeCached, judge, same, ← answer, Cache.after]
  rcases cache.compile rule.order.root with ⟨dfa | e, next⟩ <;> rfl

theorem judgeEach_eq (limits : Limits) (tasks : List Task)
    (same : ∀ task ∈ tasks, task.rule.settings.limits = limits) (requests : List Cache.Request) :
    judgeEach (.ofRequests limits requests) tasks =
      (tasks.map Task.judge, .ofRequests limits (requests ++ tasks.map Task.request)) := by
  -- a judgement leaves a cache that has had one request more
  induction tasks generalizing requests with
  | nil => simp [judgeEach]
  | cons task tasks ih =>
      obtain ⟨here, later⟩ := List.forall_mem_cons.mp same
      have own : task.rule.settings.limits = (Cache.ofRequests limits requests).limits :=
        here.trans (Cache.limits_ofRequests limits requests).symm
      have first := judgeCached_eq (Cache.ofRequests_faithful limits requests) own task.context
        task.queries
      rw [judgeEach, first, ← Cache.ofRequests_append]
      dsimp only
      rw [ih later, List.append_assoc]
      rfl

end Ordered

namespace Cache

/-- Whatever has been asked of a cache, it answers as compiling does, it holds what has been asked
for with success since it was cleared, it counts every call, and verdicts are the same by way of it
as without it. -/
theorem transparent (limits : Limits) (requests : List Request) :
    let c := ofRequests limits requests
    (∀ p, (c.compile p).1 = p.compile limits) ∧
    (c.entries.map (·.1)).Nodup ∧
    (∀ p dfa, (p, dfa) ∈ c.entries ↔ Remembered limits requests p ∧ p.compile limits = .ok dfa) ∧
    c.hits + c.misses = requests.countP (· ≠ .clear) ∧
    (∀ p, Remembered limits requests p →
      (c.compile p).2.hits = c.hits + 1 ∧ (c.compile p).2.misses = c.misses) ∧
    (∀ p, ¬ Remembered limits requests p →
      (c.compile p).2.hits = c.hits ∧ (c.compile p).2.misses = c.misses + 1) ∧
    (c.clear.hits = c.hits ∧ c.clear.misses = c.misses) ∧
    ∀ tasks : List Ordered.Task, (∀ task ∈ tasks, task.rule.settings.limits = limits) →
      Ordered.judgeEach c tasks = (tasks.map Ordered.Task.judge,
        ofRequests limits (requests ++ tasks.map Ordered.Task.request)) :=
  ⟨compile_ofRequests limits requests, (ofRequests_faithful limits requests).distinct,
    mem_entries_ofRequests limits requests, counted_ofRequests limits requests,
    fun p => (counters_compile limits requests p).1, fun p => (counters_compile limits requests p).2,
    ⟨rfl, rfl⟩, fun tasks same => Ordered.judgeEach_eq limits tasks same requests⟩

def reversed : Pattern := .quantified (.terminal "file" "read") .between (some (.range 2 1))

def sessionRequests : List Request :=
  [.compile .session, .compile .session, .clear, .compile reversed, .compile .session]

def sessionTask : Ordered.Task :=
  ⟨Ordered.sessionRule, .ofRule .unnamed, Ordered.filesProgram.queries⟩

theorem session_transparent : ∃ dfa, Pattern.session.compile .standard = .ok dfa ∧
    (ofRequests .standard sessionRequests).entries = [(.session, dfa)] ∧
    Remembered .standard sessionRequests .session ∧
    ((ofRequests .standard sessionRequests).compile .session).2.hits = 2 ∧
    ¬ Remembered .standard sessionRequests reversed ∧
    ((ofRequests .standard sessionRequests).compile reversed).2.misses = 4 ∧
    (∀ task ∈ [sessionTask, sessionTask], task.rule.settings.limits = .standard) ∧
    (Ordered.judgeEach (ofRequests .standard sessionRequests) [sessionTask, sessionTask]).1 =
      [sessionTask.judge, sessionTask.judge] := by
  have keys : (ofRequests .standard sessionRequests).entries.map (·.1) = [.session] := by
    decide +kernel
  have hits : (ofRequests .standard sessionRequests).hits = 1 := by decide +kernel
  have misses : (ofRequests .standard sessionRequests).misses = 3 := by decide +kernel
  obtain ⟨answers, _, entries, _, hit, missed, _, verdicts⟩ := transparent .standard sessionRequests
  obtain ⟨⟨_, dfa⟩, sole, rfl⟩ := List.map_eq_singleton_iff.mp keys
  have present : (Pattern.session, dfa) ∈ (ofRequests .standard sessionRequests).entries := by
    rw [sole]
    exact List.mem_singleton_self _
  obtain ⟨remembered, compiled⟩ := (entries .session dfa).mp present
  have forgotten : ¬ Remembered .standard sessionRequests reversed := by
    intro given
    obtain ⟨before, _, _, _, other, answered⟩ := id given
    rw [compile_ofRequests] at answered
    have listed := (entries reversed other).mpr ⟨given, answered⟩
    simp [sole, reversed, Pattern.session] at listed
  have same : ∀ task ∈ [sessionTask, sessionTask], task.rule.settings.limits = .standard := by
    decide +kernel
  rw [verdicts _ same, (hit .session remembered).1, (missed reversed forgotten).2, hits, misses]
  exact ⟨dfa, compiled, sole, remembered, rfl, forgotten, rfl, same, rfl⟩

end Cache

end CallOrder
