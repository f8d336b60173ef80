import CallOrder.Proofs.Failures

/-!
Operations that ask for less. Main statement: what fits an operation fits whatever generalises it,
so a rule whose operations are replaced by more general ones, one after the other, fails at fewer
places where it needs a match and at more where it objects to one.
-/

namespace CallOrder

/-- The first condition asks for no more than the second one, as far as the two tell. -/
inductive ArgumentPattern.Generalises : ArgumentPattern → ArgumentPattern → Prop
  | wildcard (condition : ArgumentPattern) : Generalises .wildcard condition
  | same (condition : ArgumentPattern) : Generalises condition condition
  | value {literal : String} {literals : List String} (listed : literal ∈ literals) :
      Generalises (.oneOf literals) (.value literal)
  | oneOf {literals more : List String} (listed : literals ⊆ more) :
      Generalises (.oneOf more) (.oneOf literals)

def Operation.Generalises (wider op : Operation) : Prop :=
  wider.target = op.target ∧ (wider.signature = none ∨
    ∃ weaker conditions, wider.signature = some weaker ∧ op.signature = some conditions ∧
      List.Forall₂ ArgumentPattern.Generalises weaker conditions)

/-- One operation of a list is replaced by one that generalises it. -/
inductive Widened : List Operation → List Operation → Prop
  | replace (before : List Operation) {op wider : Operation} (after : List Operation)
      (general : wider.Generalises op) : Widened (before ++ op :: after) (before ++ wider :: after)

theorem ArgumentPattern.Generalises.admits {weaker condition : ArgumentPattern}
    {argument : Argument} (general : weaker.Generalises condition)
    (admitted : condition.Admits argument) : weaker.Admits argument := by
  cases general with
  | wildcard => exact trivial
  | same => exact admitted
  | value listed => exact ⟨_, listed, admitted⟩
  | oneOf listed =>
      rcases admitted with ⟨literal, present, known⟩
      exact ⟨literal, listed present, known⟩

theorem admits_of_generalises {weaker conditions : List ArgumentPattern} {arguments : List Argument}
    (general : List.Forall₂ ArgumentPattern.Generalises weaker conditions)
    (admitted : List.Forall₂ ArgumentPattern.Admits conditions arguments) :
    List.Forall₂ ArgumentPattern.Admits weaker arguments := by
  induction general generalizing arguments with
  | nil => exact admitted
  | cons first _ ih =>
      cases admitted with
      | cons admits rest => exact .cons (first.admits admits) (ih rest)

theorem Operation.Generalises.matches {wider op : Operation} {o : Occurrence}
    (general : wider.Generalises op) (fits : o.Matches op) : o.Matches wider := by
  rcases general with ⟨target, unsigned | ⟨weaker, conditions, signed, signedToo, each⟩⟩
  · exact ⟨fits.1.trans target.symm, by simp [unsigned]⟩
  · refine ⟨fits.1.trans target.symm, ?_⟩
    intro required asked
    rw [signed] at asked
    cases asked
    exact admits_of_generalises each (fits.2 conditions signedToo)

namespace Arena

variable {a : Arena} {ops wider others : List Operation} {id : OccurrenceId}

theorem Matching.widen (step : Widened ops wider) (matching : a.Matching ops id) :
    a.Matching wider id := by
  cases step with
  | replace before after general =>
      rcases matching with ⟨op, listed, o, found, fits⟩
      simp only [List.mem_append, List.mem_cons] at listed
      rcases listed with early | rfl | late
      · exact ⟨op, by simp [early], o, found, fits⟩
      · exact ⟨_, by simp, o, found, general.matches fits⟩
      · exact ⟨op, by simp [late], o, found, fits⟩

theorem Matching.widenAll (steps : Relation.ReflTransGen Widened ops wider)
    (matching : a.Matching ops id) : a.Matching wider id := by
  induction steps with
  | refl => exact matching
  | tail _ step ih => exact ih.widen step

theorem targets_widenAll (steps : Relation.ReflTransGen Widened ops wider) :
    wider.map (·.target) = ops.map (·.target) := by
  induction steps with
  | refl => rfl
  | tail _ step ih =>
      cases step with
      | replace before after general => simpa [general.1] using ih

theorem Targeting.congr (targets : ops.map (·.target) = others.map (·.target))
    (targeting : a.Targeting ops id) : a.Targeting others id := by
  rcases targeting with ⟨op, listed, o, found, target⟩
  have among : op.target ∈ others.map (·.target) := targets ▸ List.mem_map_of_mem listed
  rcases List.mem_map.mp among with ⟨other, listedToo, same⟩
  exact ⟨other, listedToo, o, found, target.trans same.symm⟩

end Arena

namespace Program

/-- On every recorded program, what fits an operation fits whatever generalises it. Operations that
are replaced by more general ones, one after the other, can only take failures away where a match
is what is asked for, and only add some where it is what is objected to or what needs a partner. -/
theorem widening_monotone (additions : List Addition) (context : Context) :
    (∀ op wider, wider.Generalises op → ∃ found more,
      (ofAdditions additions).queries.resolveFitting op = .ok found ∧
      (ofAdditions additions).queries.resolveFitting wider = .ok more ∧
      ∀ id ∈ found, id ∈ more) ∧
    ∀ ops wider, Relation.ReflTransGen Widened ops wider →
      ∀ (others : List Operation) (reportPassing : Bool),
        FailsWithin
          ((⟨wider, reportPassing⟩ : Only).judge context (ofAdditions additions).queries)
          ((⟨ops, reportPassing⟩ : Only).judge context (ofAdditions additions).queries) ∧
        FailsWithin
          ((⟨others, wider, reportPassing⟩ : Follows).judge context (ofAdditions additions).queries)
          ((⟨others, ops, reportPassing⟩ : Follows).judge context (ofAdditions additions).queries) ∧
        FailsWithin
          ((⟨wider, others, reportPassing⟩ : Precedes).judge context (ofAdditions additions).queries)
          ((⟨ops, others, reportPassing⟩ : Precedes).judge context (ofAdditions additions).queries) ∧
        FailsWithin
          ((⟨ops, reportPassing⟩ : Never).judge context (ofAdditions additions).queries)
          ((⟨wider, reportPassing⟩ : Never).judge context (ofAdditions additions).queries) ∧
        FailsWithin
          ((⟨ops, others, reportPassing⟩ : Follows).judge context (ofAdditions additions).queries)
          ((⟨wider, others, reportPassing⟩ : Follows).judge context (ofAdditions additions).queries) ∧
        FailsWithin
          ((⟨others, ops, reportPassing⟩ : Precedes).judge context (ofAdditions additions).queries)
          ((⟨others, wider, reportPassing⟩ : Precedes).judge context
            (ofAdditions additions).queries) := by
  constructor
  · intro op wider general
    have indexed := ofAdditions_indexed additions
    refine ⟨_, _, rfl, rfl, ?_⟩
    intro id fits
    rcases (mem_resolveFitting indexed op id).mp fits with ⟨o, found, matched⟩
    exact (mem_resolveFitting indexed wider id).mpr ⟨o, found, general.matches matched⟩
  · intro ops wider steps others reportPassing
    have targets := Arena.targets_widenAll steps
    refine ⟨?_, ?_, ?_, ?_, ?_, ?_⟩
    · apply (Only.failsAt context additions _).within (Only.failsAt context additions _)
      intro id wrong
      exact ⟨wrong.1.congr targets, fun matching => wrong.2 (matching.widenAll steps)⟩
    · apply (Follows.failsAt context additions _).within (Follows.failsAt context additions _)
      exact Arena.unpaired_subset (fun _ subject => subject)
        (fun _ partner => partner.widenAll steps) fun _ _ flows => flows
    · apply (Precedes.failsAt context additions _).within (Precedes.failsAt context additions _)
      exact Arena.unpaired_subset (fun _ subject => subject)
        (fun _ partner => partner.widenAll steps) fun _ _ flows => flows
    · apply (Never.failsAt context additions _).within (Never.failsAt context additions _)
      intro id matching
      exact matching.widenAll steps
    · apply (Follows.failsAt context additions _).within (Follows.failsAt context additions _)
      exact Arena.unpaired_subset (fun _ subject => subject.widenAll steps)
        (fun _ partner => partner) fun _ _ flows => flows
    · apply (Precedes.failsAt context additions _).within (Precedes.failsAt context additions _)
      exact Arena.unpaired_subset (fun _ subject => subject.widenAll steps)
        (fun _ partner => partner) fun _ _ flows => flows

def encrypting : Operation := ⟨"init", some [.value "ENCRYPT"]⟩

def ciphering : Operation := ⟨"init", some [.oneOf ["DECRYPT", "ENCRYPT"]]⟩

theorem ciphers_widened : ciphering.Generalises encrypting ∧
    Relation.ReflTransGen Widened [encrypting, .any "seed"] [.any "init", .any "seed"] ∧
    (∃ found more, (ofAdditions ciphers).queries.resolveFitting encrypting = .ok found ∧
      (ofAdditions ciphers).queries.resolveFitting ciphering = .ok more ∧
      ∀ id ∈ found, id ∈ more) ∧
    FailsWithin
      ((⟨[.any "init", .any "seed"], true⟩ : Only).judge (.ofRule .unnamed)
        (ofAdditions ciphers).queries)
      ((⟨[encrypting, .any "seed"], true⟩ : Only).judge (.ofRule .unnamed)
        (ofAdditions ciphers).queries) ∧
    failurePlaces ((⟨[encrypting, .any "seed"], true⟩ : Only).judge (.ofRule .unnamed)
      (ofAdditions ciphers).queries) = some [some 2] ∧
    failurePlaces ((⟨[.any "init", .any "seed"], true⟩ : Only).judge (.ofRule .unnamed)
      (ofAdditions ciphers).queries) = some [] ∧
    failurePlaces ((⟨[encrypting, .any "seed"], true⟩ : Never).judge (.ofRule .unnamed)
      (ofAdditions ciphers).queries) = some [some 0, some 1] ∧
    failurePlaces ((⟨[.any "init", .any "seed"], true⟩ : Never).judge (.ofRule .unnamed)
      (ofAdditions ciphers).queries) = some [some 0, some 1, some 2] := by
  have first : ciphering.Generalises encrypting :=
    ⟨rfl, Or.inr ⟨_, _, rfl, rfl, .cons (.value (by decide)) .nil⟩⟩
  have second : (Operation.any "init").Generalises ciphering := ⟨rfl, Or.inl rfl⟩
  have steps : Relation.ReflTransGen Widened [encrypting, .any "seed"]
      [.any "init", .any "seed"] :=
    .tail (.tail .refl (.replace [] [.any "seed"] first)) (.replace [] [.any "seed"] second)
  rcases widening_monotone ciphers (.ofRule .unnamed) with ⟨finds, rules⟩
  exact ⟨first, steps, finds _ _ first, (rules _ _ steps [] true).1, by decide +kernel,
    by decide +kernel, by decide +kernel, by decide +kernel⟩

end Program

end CallOrder
