import ComputeMarket.Proofs.Action

/-
This file says what it means that an action does not notice a change of its state, and how this is
shown for an action one part after the other.
-/

namespace ComputeMarket

variable {σ α β : Type}

/-- A result with the state that it leaves changed. -/
def onState (change : σ → σ) : EStateM.Result MarketError σ α → EStateM.Result MarketError σ α
  | .ok value after => .ok value (change after)
  | .error cause after => .error cause (change after)

/-- Started in a changed state, an action gives the same answer and leaves the state that it would
have left with the same change. -/
def Ignores (change : σ → σ) (action : EStateM MarketError σ α) (state : σ) : Prop :=
  action.run (change state) = onState change (action.run state)

namespace Ignores

variable {change : σ → σ} {action : EStateM MarketError σ α} {state : σ}

theorem pure (value : α) : Ignores change (Pure.pure value : EStateM MarketError σ α) state := rfl

theorem throw (cause : MarketError) :
    Ignores change (MonadExcept.throw cause : EStateM MarketError σ α) state := rfl

/-- A check that does not depend on the state notices nothing. -/
theorem accept (check : Except MarketError α) :
    Ignores change (accept check : EStateM MarketError σ α) state := by
  cases check with
  | ok value => exact .pure value
  | error cause => exact .throw cause

/-- Two parts notice nothing if the first one does not, and the second one does not where the first
one has led. -/
theorem bind {next : α → EStateM MarketError σ β} (first : Ignores change action state)
    (rest : ∀ value after, action.run state = .ok value after →
      Ignores change (next value) after) : Ignores change (action >>= next) state := by
  unfold Ignores at first ⊢
  rw [EStateM.run_bind, EStateM.run_bind, first]
  cases ran : action.run state with
  | ok value after => exact rest value after ran
  | error cause after => rfl

theorem map {f : α → β} (first : Ignores change action state) :
    Ignores change (f <$> action) state := by
  rw [map_eq_pure_bind]
  exact first.bind fun value _ _ => .pure (f value)

/-- An action may look at what the change leaves alone. -/
theorem get {next : σ → EStateM MarketError σ α} (same : next (change state) = next state)
    (rest : Ignores change (next state) state) :
    Ignores change (MonadState.get >>= next) state := by
  change (next (change state)).run (change state) = onState change ((next state).run state)
  rw [same]
  exact rest

/-- A change of the state notices nothing if it may come before or after the other change. -/
theorem modify {step : σ → σ} (same : step (change state) = change (step state)) :
    Ignores change (modify step : EStateM MarketError σ PUnit) state := by
  unfold Ignores
  rw [EStateM.run_modify, EStateM.run_modify, same]
  rfl

/-- Past a refusal under a condition, an action may go on. -/
theorem refuse {condition : Prop} [Decidable condition] {cause : MarketError}
    {next : PUnit → EStateM MarketError σ α} {accepted : EStateM MarketError σ α}
    (rest : ¬ condition → Ignores change accepted state) :
    Ignores change (if condition then MonadExcept.throw cause >>= next else accepted) state := by
  split
  · rfl
  · rename_i passed
    exact rest passed

/-- Past a demand, an action may go on. -/
theorem demand {condition : Prop} [Decidable condition] {cause : MarketError}
    {next : PUnit → EStateM MarketError σ α} {accepted : EStateM MarketError σ α}
    (rest : condition → Ignores change accepted state) :
    Ignores change (if condition then accepted else MonadExcept.throw cause >>= next) state := by
  split
  · rename_i met
    exact rest met
  · rfl

/-- An attempt at an action ends well either way. -/
theorem attempt (first : Ignores change action state) :
    Ignores change
      (try some <$> action catch _ => Pure.pure none : EStateM MarketError σ (Option α)) state := by
  unfold Ignores at first ⊢
  rw [Action.attempt_run, Action.attempt_run, first]
  cases action.run state <;> rfl

end Ignores

end ComputeMarket
