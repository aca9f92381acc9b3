import ComputeMarket.Transition

/-
This file says what it means that an action does all of its work or nothing, and how this is
shown for an action one part after the other.
-/

namespace ComputeMarket

/-- An action does what is said, or it fails for a cause of the given kind and leaves the state
as it was. -/
def AllOrNothing {σ α : Type} (action : EStateM MarketError σ α) (state : σ)
    (done : α → σ → Prop) (refused : MarketError → Prop) : Prop :=
  match action.run state with
  | .ok value after => done value after
  | .error cause after => refused cause ∧ after = state

namespace AllOrNothing

variable {σ α β : Type} {action : EStateM MarketError σ α} {state after : σ} {value : α}
  {cause : MarketError} {done : α → σ → Prop} {final : β → σ → Prop}
  {refused early : MarketError → Prop}

theorem of_ok (all : AllOrNothing action state done refused)
    (ran : action.run state = .ok value after) : done value after := by
  rw [AllOrNothing, ran] at all
  exact all

theorem of_error (all : AllOrNothing action state done refused)
    (ran : action.run state = .error cause after) : refused cause ∧ after = state := by
  rw [AllOrNothing, ran] at all
  exact all

theorem of_run (ran : action.run state = .ok value after) (worked : done value after) :
    AllOrNothing action state done refused := by
  rw [AllOrNothing, ran]
  exact worked

/-- An action that does what is said does whatever follows from it. -/
theorem imp {weaker : α → σ → Prop} (all : AllOrNothing action state done refused)
    (implies : ∀ value after, done value after → weaker value after) :
    AllOrNothing action state weaker refused := by
  unfold AllOrNothing at all ⊢
  cases ran : action.run state with
  | ok value after =>
      rw [ran] at all
      exact implies value after all
  | error cause after =>
      rw [ran] at all
      exact all

theorem of_get {next : σ → EStateM MarketError σ α}
    (all : AllOrNothing (next state) state done refused) :
    AllOrNothing (get >>= next) state done refused := all

/-- Past a refusal under a condition, an action goes on when the condition fails. -/
theorem of_refuse {condition : Prop} [Decidable condition] {next : PUnit → EStateM MarketError σ α}
    {accepted : EStateM MarketError σ α} (stops : condition → refused cause)
    (all : ¬ condition → AllOrNothing accepted state done refused) :
    AllOrNothing (if condition then throw cause >>= next else accepted) state done refused := by
  by_cases holds : condition
  · rw [if_pos holds]
    exact ⟨stops holds, rfl⟩
  · rw [if_neg holds]
    exact all holds

/-- Past a demand, an action goes on when the condition holds. -/
theorem of_demand {condition : Prop} [Decidable condition] {next : PUnit → EStateM MarketError σ α}
    {accepted : EStateM MarketError σ α} (stops : ¬ condition → refused cause)
    (all : condition → AllOrNothing accepted state done refused) :
    AllOrNothing (if condition then accepted else throw cause >>= next) state done refused := by
  by_cases holds : condition
  · rw [if_pos holds]
    exact all holds
  · rw [if_neg holds]
    exact ⟨stops holds, rfl⟩

/-- Past a check, an action goes on with the value that the check gives. -/
theorem of_accept {check : Except MarketError α} {next : α → EStateM MarketError σ β}
    (stops : ∀ cause, check = .error cause → refused cause)
    (all : ∀ value, check = .ok value → AllOrNothing (next value) state final refused) :
    AllOrNothing (accept check >>= next) state final refused := by
  cases check with
  | ok value => exact all value rfl
  | error cause => exact ⟨stops cause rfl, rfl⟩

/-- An action that leaves the state alone may be followed by any other. -/
theorem bind_same {next : α → EStateM MarketError σ β} {known : α → Prop}
    (all : AllOrNothing action state (fun value after => after = state ∧ known value) early)
    (stops : ∀ cause, early cause → refused cause)
    (goesOn : ∀ value, known value → AllOrNothing (next value) state final refused) :
    AllOrNothing (action >>= next) state final refused := by
  unfold AllOrNothing at all
  cases ran : action.run state with
  | ok value after =>
      rw [ran] at all
      obtain ⟨same, worked⟩ := all
      subst same
      have later := goesOn value worked
      unfold AllOrNothing at later ⊢
      rw [EStateM.run_bind, ran]
      exact later
  | error cause after =>
      rw [ran] at all
      unfold AllOrNothing
      rw [EStateM.run_bind, ran]
      exact ⟨stops cause all.1, all.2⟩

/-- An action that has worked may be followed by one that never fails. -/
theorem bind {next : α → EStateM MarketError σ β}
    (all : AllOrNothing action state done early) (stops : ∀ cause, early cause → refused cause)
    (goesOn : ∀ value after, done value after →
      ∃ reply last, (next value).run after = .ok reply last ∧ final reply last) :
    AllOrNothing (action >>= next) state final refused := by
  unfold AllOrNothing at all ⊢
  rw [EStateM.run_bind]
  cases ran : action.run state with
  | ok value after =>
      rw [ran] at all
      obtain ⟨reply, last, went, reached⟩ := goesOn value after all
      simp only [went]
      exact reached
  | error cause after =>
      rw [ran] at all
      exact ⟨stops cause all.1, all.2⟩

/-- The answer may be changed afterwards. -/
theorem map {f : α → β} (all : AllOrNothing action state done early)
    (stops : ∀ cause, early cause → refused cause)
    (implies : ∀ value after, done value after → final (f value) after) :
    AllOrNothing (f <$> action) state final refused := by
  rw [map_eq_pure_bind]
  exact all.bind stops fun value after worked =>
    ⟨f value, after, rfl, implies value after worked⟩

end AllOrNothing

namespace Action

variable {σ α : Type}

theorem accept_ok_run (value : α) (state : σ) :
    (accept (.ok value) : EStateM MarketError σ α).run state = .ok value state := rfl

/-- Another wording for its causes does not change what an action does. -/
theorem adaptExcept_run {ε δ : Type} (explain : ε → δ) (action : EStateM ε σ α) (state : σ) :
    (EStateM.adaptExcept explain action).run state =
      match action.run state with
      | .ok value after => .ok value after
      | .error cause after => .error (explain cause) after := by
  unfold EStateM.adaptExcept EStateM.run
  dsimp only
  cases action state <;> rfl

/-- An attempt never fails. What a refused action has changed stays changed. -/
theorem attempt_run (action : EStateM MarketError σ α) (state : σ) :
    (try some <$> action catch _ => pure none : EStateM MarketError σ (Option α)).run state =
      match action.run state with
      | .ok value after => .ok (some value) after
      | .error _ after => .ok none after := by
  change EStateM.tryCatch (EStateM.map some action) (fun _ => EStateM.pure none) state = _
  unfold EStateM.tryCatch EStateM.map EStateM.run
  cases action state <;> rfl

end Action

end ComputeMarket
