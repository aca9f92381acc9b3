import ComputeMarket.Proofs.Indifference
import ComputeMarket.Proofs.Store.History

/-
This file proves that no operation looks at the events that wait: earlier events stay in front of
them and change nothing else.
-/

namespace ComputeMarket.Store

variable {α : Type}

/-- The store with earlier events in front of those that wait. -/
def withPast (past : List Event) (store : Store) : Store :=
  { store with events := past ++ store.events }

/-- An action that does not look at the events that wait. -/
def Unaware (action : Action α) : Prop :=
  ∀ past store, Ignores (withPast past) action store

namespace Unaware

/-- A transition of a market is unaware of the events that wait. -/
theorem onMarket (market : Key) (transition : Transition α) :
    Unaware (onMarket market transition) := by
  intro past store
  unfold Ignores
  rw [onMarket_run, onMarket_run]
  have sameVenues : (store.withPast past).venues = store.venues := rfl
  have sameBalances : (store.withPast past).balances = store.balances := rfl
  rw [sameVenues, sameBalances]
  cases store.venues.get? market with
  | none => rfl
  | some venue =>
      dsimp only
      cases transition.run ⟨venue, store.balances⟩ <;> rfl

theorem marketOfJob (job : Key) : Unaware (marketOfJob job) := by
  intro past store
  refine .get rfl ?_
  cases store.jobMarkets.get? job with
  | none => exact .throw _
  | some market => exact .pure market

theorem announce (events : List Event) : Unaware (announce events) := by
  intro past store
  apply Ignores.modify
  change Store.mk _ _ _ _ _ (past ++ store.events ++ events) = _
  rw [List.append_assoc]
  rfl

/-- Telling something is the end of an action. -/
theorem announcing (events : List Event) (value : α) :
    Unaware (do Store.announce events; return value) := by
  intro past store
  apply Ignores.bind (announce events past store)
  intro _ after _
  exact .pure value

theorem updateReputation (node : Key) (update : Reputation → Reputation) :
    Unaware (updateReputation node update) := by
  intro past store
  apply Ignores.modify
  change (if store.config.trackReputation then _ else _) = withPast past (if _ then _ else _)
  split <;> rfl

theorem noteTimeout (now : Int64) (job : Job) : Unaware (noteTimeout now job) := by
  intro past store
  unfold Store.noteTimeout
  cases job.node with
  | none => exact .pure ()
  | some node => exact updateReputation node _ past store

/-- Actions one after the other are unaware of the events that wait if each of them is. -/
theorem forM {act : α → Action PUnit} (each : ∀ item, Unaware (act item)) (items : List α) :
    Unaware (items.forM act) := by
  intro past store
  induction items generalizing store with
  | nil => exact .pure _
  | cons first rest inductionHypothesis =>
      rw [List.forM_eq_forM, List.forM_cons]
      apply Ignores.bind (each first past store)
      intro _ after _
      exact inductionHypothesis after

end Unaware

section Operations

variable (market node job account : Key) (now : Int64)

theorem unaware_createMarket (authority : Key) (params : MarketParams) :
    Unaware (createMarket authority params now) := by
  intro past store
  apply Ignores.bind (.accept params.validate)
  intro _ after _
  refine .get rfl ?_
  dsimp only
  cases freshId? after.venues authority 0x10000000000000000 (UInt64.ofNat after.venues.size) with
  | none => exact .throw _
  | some id =>
      apply Ignores.bind
      · exact .modify rfl
      intro _ after _
      exact Unaware.announcing _ id past after

theorem unaware_createJob (client : Key) (request : JobRequest) :
    Unaware (createJob market client request now) := by
  intro past store
  refine .get rfl ?_
  apply Ignores.demand
  intro _
  apply Ignores.refuse
  intro _
  apply Ignores.bind (Unaware.onMarket market _ past store)
  intro answer after _
  apply Ignores.bind
  · exact .modify rfl
  intro _ after _
  exact Unaware.announcing _ answer.1 past after

theorem unaware_listNode (stake : Stake) : Unaware (listNode market node stake now) := by
  intro past store
  refine .get rfl ?_
  apply Ignores.bind (Unaware.onMarket market _ past store)
  intro answer after _
  exact Unaware.announcing _ answer.1 past after

theorem unaware_delistNode : Unaware (delistNode market node now) := by
  intro past store
  apply Ignores.bind (Unaware.onMarket market _ past store)
  intro event after _
  exact Unaware.announce [event] past after

theorem unaware_finishJob (result : Digest) : Unaware (finishJob job node result now) := by
  intro past store
  apply Ignores.bind (Unaware.marketOfJob job past store)
  intro market after _
  refine .get rfl ?_
  apply Ignores.bind (Unaware.onMarket market _ past after)
  intro answer after _
  apply Ignores.bind (Unaware.updateReputation node _ past after)
  intro _ after _
  exact Unaware.announcing _ answer.1 past after

theorem unaware_cancelJob (client : Key) : Unaware (cancelJob job client now) := by
  intro past store
  apply Ignores.bind (Unaware.marketOfJob job past store)
  intro market after _
  apply Ignores.bind (Unaware.onMarket market _ past after)
  intro answer after _
  exact Unaware.announcing _ answer.1 past after

theorem unaware_timeoutJob : Unaware (timeoutJob job now) := by
  intro past store
  apply Ignores.bind (Unaware.marketOfJob job past store)
  intro market after _
  refine .get rfl ?_
  apply Ignores.bind (Unaware.onMarket market _ past after)
  intro answer after _
  apply Ignores.bind (Unaware.noteTimeout now answer.1 past after)
  intro _ after _
  exact Unaware.announcing _ answer.1 past after

theorem unaware_sweep : Unaware (sweep market now) := by
  intro past store
  refine .get rfl ?_
  apply Ignores.bind (Unaware.onMarket market _ past store)
  intro ended after _
  apply Ignores.bind (Unaware.forM (fun entry => .noteTimeout now entry.1) ended past after)
  intro _ after _
  exact Unaware.announcing _ _ past after

theorem unaware_deposit (amount : Amount) : Unaware (deposit account amount) := by
  intro past store
  apply Ignores.refuse
  intro _
  refine .get rfl ?_
  apply Ignores.bind (.accept _)
  intro answer after _
  apply Ignores.bind
  · exact .modify rfl
  intro _ after _
  exact .pure answer.1

/-- No operation looks at the events that wait. -/
theorem unaware_perform (operation : Operation) : Unaware (operation.perform now) := by
  intro past store
  cases operation with
  | createMarket authority params =>
      exact .map (unaware_createMarket now authority params past store)
  | createJob market client request =>
      exact .map (unaware_createJob market now client request past store)
  | listNode market node stake => exact .map (unaware_listNode market node now stake past store)
  | delistNode market node => exact .map (unaware_delistNode market node now past store)
  | finishJob job node result => exact .map (unaware_finishJob node job now result past store)
  | cancelJob job client => exact .map (unaware_cancelJob job now client past store)
  | timeoutJob job => exact .map (unaware_timeoutJob job now past store)
  | sweep market => exact .map (unaware_sweep market now past store)
  | deposit account amount => exact .map (unaware_deposit account amount past store)

/-- An operation answers the same whatever waits, and tells the same behind it. -/
theorem apply_withPast (past : List Event) (store : Store) (operation : Operation) :
    (store.withPast past).apply now operation =
      ((store.apply now operation).1, (store.apply now operation).2.withPast past) := by
  have same := unaware_perform now operation past store
  unfold Ignores EStateM.run at same
  unfold apply
  rw [same]
  cases operation.perform now store <;> rfl

end Operations

end ComputeMarket.Store
