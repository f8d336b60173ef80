import CallOrder.Error

/-! Results that may be errors, and pairs of such results. -/

namespace CallOrder

variable {ε α β γ δ : Type}

theorem ok_bind (value : α) (next : α → Except ε β) : (Except.ok value >>= next) = next value :=
  rfl

theorem bind_eq_ok {first : Except ε α} {next : α → Except ε β} {result : β}
    (done : (first >>= next) = .ok result) :
    ∃ value, first = .ok value ∧ next value = .ok result := by
  cases first with
  | error e => cases done
  | ok value => exact ⟨value, rfl, done⟩

theorem error?_eq_some_iff {result : Except ε α} {e : ε} :
    error? result = some e ↔ result = .error e := by
  cases result <;> simp [error?]

theorem bind_eq_ok_congr {first second : Except ε α} {next otherNext : α → Except ε β} {result : β}
    (same : ∀ value, first = .ok value ↔ second = .ok value)
    (rest : ∀ value, next value = .ok result ↔ otherNext value = .ok result) :
    (first >>= next) = .ok result ↔ (second >>= otherNext) = .ok result := by
  constructor
  · intro done
    obtain ⟨value, given, done⟩ := bind_eq_ok done
    rw [(same value).mp given]
    exact (rest value).mp done
  · intro done
    obtain ⟨value, given, done⟩ := bind_eq_ok done
    rw [(same value).mpr given]
    exact (rest value).mpr done

theorem exists_eq_ok {result : Except ε α} {test : α → Bool}
    (passes : result.toOption.any test = true) :
    ∃ value, result = .ok value ∧ test value = true := by
  cases result with
  | error e => cases passes
  | ok value => exact ⟨value, rfl, passes⟩

theorem map_map {f : α → β} {g : β → γ} (result : Except ε α) :
    (result.map f).map g = result.map fun value => g (f value) := by
  cases result <;> rfl

theorem map_eq_of_map_eq {keep : α → γ} {first second : Except ε α}
    (same : first.map keep = second.map keep) {f g : α → β}
    (agree : ∀ one other, keep one = keep other → f one = g other) :
    first.map f = second.map g := by
  cases first with
  | error e =>
      cases second with
      | error e' =>
          cases same
          rfl
      | ok other => cases same
  | ok one =>
      cases second with
      | error e => cases same
      | ok other => exact congrArg Except.ok (agree one other (Except.ok.inj same))

/-- Two results that are the same error, or two values of which `related` holds. -/
inductive Corresponds (related : α → β → Prop) : Except ε α → Except ε β → Prop
  | error (e : ε) : Corresponds related (.error e) (.error e)
  | ok {value : α} {other : β} (holds : related value other) :
      Corresponds related (.ok value) (.ok other)

theorem Corresponds.bind {related : α → β → Prop} {final : γ → δ → Prop} {first : Except ε α}
    {second : Except ε β} {next : α → Except ε γ} {otherNext : β → Except ε δ}
    (begun : Corresponds related first second)
    (rest : ∀ value other, related value other → Corresponds final (next value) (otherNext other)) :
    Corresponds final (first >>= next) (second >>= otherNext) := by
  cases begun with
  | error e => exact .error e
  | ok holds => exact rest _ _ holds

theorem Corresponds.bind_same {final : γ → δ → Prop} (first : Except ε α) {next : α → Except ε γ}
    {otherNext : α → Except ε δ}
    (rest : ∀ value, Corresponds final (next value) (otherNext value)) :
    Corresponds final (first >>= next) (first >>= otherNext) := by
  cases first with
  | error e => exact .error e
  | ok value => exact rest value

theorem Corresponds.mono {related weaker : α → β → Prop} {first : Except ε α} {second : Except ε β}
    (both : Corresponds related first second)
    (holds : ∀ value other, related value other → weaker value other) :
    Corresponds weaker first second := by
  cases both with
  | error e => exact .error e
  | ok known => exact .ok (holds _ _ known)

end CallOrder
