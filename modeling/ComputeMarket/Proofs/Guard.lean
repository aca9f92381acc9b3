import ComputeMarket.Error

/-
This file says what it means that a sequence of checks succeeds: every check in it does.
-/

namespace ComputeMarket.Guard

variable {ε α β γ : Type}

/-- Two parts succeed exactly if the first one does and the second one does with its value. -/
theorem bind_eq_ok {first : Except ε α} {next : α → Except ε β} {result : β} :
    (first >>= next) = .ok result ↔ ∃ value, first = .ok value ∧ next value = .ok result := by
  cases first <;> simp [bind, Except.bind]

theorem map_eq_ok {first : Except ε α} {next : α → β} {result : β} :
    first.map next = .ok result ↔ ∃ value, first = .ok value ∧ next value = result := by
  cases first <;> simp [Except.map]

/-- Past a check, the rest succeeds on its own. -/
theorem unit_bind_eq_ok {first : Except ε Unit} {next : Unit → Except ε β} {result : β} :
    (first >>= next) = .ok result ↔ first = .ok () ∧ next () = .ok result := by
  cases first <;> simp [bind, Except.bind]

/-- A refusal under a condition is passed exactly when the condition fails. -/
theorem refuse_eq_ok {condition : Prop} [Decidable condition] {cause : ε}
    {next : γ → Except ε β} {accepted : Except ε β} {result : β} :
    (if condition then throw cause >>= next else accepted) = .ok result ↔
      ¬ condition ∧ accepted = .ok result := by
  by_cases holds : condition <;> simp [holds, throw, throwThe, MonadExceptOf.throw, bind, Except.bind]

/-- A refusal unless a condition holds is passed exactly when it holds. -/
theorem demand_eq_ok {condition : Prop} [Decidable condition] {cause : ε}
    {next : γ → Except ε β} {accepted : Except ε β} {result : β} :
    (if condition then accepted else throw cause >>= next) = .ok result ↔
      condition ∧ accepted = .ok result := by
  by_cases holds : condition <;> simp [holds, throw, throwThe, MonadExceptOf.throw, bind, Except.bind]

theorem last_demand_eq_ok {condition : Prop} [Decidable condition] {cause : ε} :
    (if condition then pure () else throw cause : Except ε Unit) = .ok () ↔ condition := by
  by_cases holds : condition <;> simp [holds, throw, throwThe, MonadExceptOf.throw, pure, Except.pure]

theorem throw_ne_ok {cause : ε} {result : α} : (throw cause : Except ε α) ≠ .ok result := by
  simp [throw, throwThe, MonadExceptOf.throw]

/-- A check of all items succeeds exactly if it succeeds for each. -/
theorem forM_eq_ok {items : List α} {check : α → Except ε Unit} :
    forM items check = .ok () ↔ ∀ item ∈ items, check item = .ok () := by
  induction items with
  | nil => simp [pure, Except.pure]
  | cons first rest inductionHypothesis =>
      rw [List.forM_cons, unit_bind_eq_ok, inductionHypothesis, List.forall_mem_cons]

/-- A guard whose condition holds lets the rest pass. -/
theorem guard_bind {condition : Prop} [Decidable condition] (holds : condition)
    (next : Unit → Option α) : (guard condition >>= next) = next () := by
  change ((if condition then pure () else failure) >>= next) = next ()
  rw [if_pos holds]
  rfl

end ComputeMarket.Guard
