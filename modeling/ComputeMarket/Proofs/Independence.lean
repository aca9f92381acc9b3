import ComputeMarket.Proofs.Standing
import ComputeMarket.Proofs.Store.Footprint

/-
This file proves that operations on different markets commute: as long as they move money of
different accounts and do not fight for the id of a new job, it does not matter which comes first.
-/

namespace ComputeMarket.Store

/-- In either order, two operations answer the same and leave the same store, and each tells the
same events. -/
structure Commute (store : Store) (now : Int64) (first second : Operation) : Prop where
  firstAnswer : ((store.apply now second).2.apply now first).1 = (store.apply now first).1
  secondAnswer : ((store.apply now first).2.apply now second).1 = (store.apply now second).1
  state : { ((store.apply now first).2.apply now second).2 with events := [] } =
    { ((store.apply now second).2.apply now first).2 with events := [] }
  events : ∃ told others,
    (store.apply now first).2.events = store.events ++ told ∧
    (store.apply now second).2.events = store.events ++ others ∧
    ((store.apply now first).2.apply now second).2.events = store.events ++ (told ++ others) ∧
    ((store.apply now second).2.apply now first).2.events = store.events ++ (others ++ told)

/-- Two operations on different markets that share no account and no id of a new job. -/
structure Independent (store : Store) (left right : Key) (first second : Operation) : Prop where
  markets : left ≠ right
  onLeft : first.Concerns store left
  onRight : second.Concerns store right
  accounts : (first.accounts store).Disjoint (second.accounts store)
  newJobs : ∀ id, first.newJob? = some id → second.newJob? ≠ some id

variable {store : Store} {now : Int64} {left right : Key} {first second : Operation}

/-- Independence does not depend on which operation is first. -/
theorem Independent.symm (independent : store.Independent left right first second) :
    store.Independent right left second first where
  markets := independent.markets.symm
  onLeft := independent.onRight
  onRight := independent.onLeft
  accounts := List.disjoint_symm independent.accounts
  newJobs id made other := independent.newJobs id other made

/-- No operation changes the configuration. -/
theorem Sound.config_apply (sound : store.Sound) (now : Int64) (operation : Operation) :
    (store.apply now operation).2.config = store.config :=
  sound.config_after [.perform now operation]

/-- An operation leaves the market of one that is independent of it as it is. -/
theorem Independent.venue_kept (independent : store.Independent left right first second)
    (sound : store.Sound) (now : Int64) :
    (store.apply now second).2.venues.get? left = store.venues.get? left :=
  (sound.keeps_apply now independent.onRight).venues left independent.markets

/-- The store after an operation is what the footprint of an independent one stands before. -/
theorem Independent.amid_eq (independent : store.Independent left right first second)
    (sound : store.Sound) (fresh : store.events = []) {marks : List (Key × Mark)}
    (rated : (store.apply now second).2.reputations =
      store.config.rateAll now marks store.reputations) :
    store.amid ⟨first.footprint store left, (store.apply now second).2, marks, now⟩ =
      (store.apply now second).2 := by
  have keeps := sound.keeps_apply now independent.onRight
  have sameConfig := sound.config_apply now second
  generalize (store.apply now second).2 = after at rated keeps sameConfig
  have venues : .splice (· = left) store.venues after.venues = after.venues := by
    apply KeyMap.splice_eq_outer
    rintro market rfl
    exact (keeps.venues market independent.markets).symm
  have jobMarkets : .splice (first.newJob? = some ·) store.jobMarkets after.jobMarkets =
      after.jobMarkets := by
    apply KeyMap.splice_eq_outer
    intro id made
    exact (keeps.jobMarkets id (independent.newJobs id made)).symm
  have balances : store.balances.amid (first.accounts store) after.balances = after.balances := by
    apply congrArg BalanceBook.mk
    apply KeyMap.splice_eq_outer
    intro account inside
    exact (keeps.balances account (independent.accounts inside)).symm
  unfold amid Operation.footprint
  dsimp only
  rw [venues, jobMarkets, balances, ← rated, ← sameConfig, fresh, List.append_nil]

/-- After an operation that is independent of it, an operation does what it does without it. -/
theorem Independent.apply_after (independent : store.Independent left right first second)
    (sound : store.Sound) (fresh : store.events = []) {marks : List (Key × Mark)}
    (confined : Mark.Confined (second.accounts store) marks)
    (rated : (store.apply now second).2.reputations =
      store.config.rateAll now marks store.reputations) :
    (store.apply now second).2.apply now first =
      ((store.apply now first).1, (store.apply now first).2.amid
        ⟨first.footprint store left, (store.apply now second).2, marks, now⟩) := by
  have spares : Mark.Spares (first.accounts store) marks := confined.spares independent.accounts
  have indexed : ∀ id job, first.job? = some id → store.record? left id = some job →
      (store.apply now second).2.jobMarkets.get? id = some left := by
    intro id job names recorded
    apply (sound.apply now second).indexed_iff.2
    refine ⟨job, ?_⟩
    rw [record?, independent.venue_kept sound now]
    exact recorded
  let around : Backdrop :=
    ⟨first.footprint store left, (store.apply now second).2, marks, now⟩
  have same : (store.amid around).apply now first =
      ((store.apply now first).1, (store.apply now first).2.amid around) :=
    apply_amid rfl sound independent.onLeft spares indexed
  rwa [independent.amid_eq sound fresh rated] at same

/-- Both orders leave the same store: each part of it comes from the operation that has it in its
footprint, or from neither. -/
theorem Independent.state_eq (independent : store.Independent left right first second)
    (sound : store.Sound) {marks others : List (Key × Mark)}
    (confined : Mark.Confined (first.accounts store) marks)
    (rated : (store.apply now first).2.reputations =
      store.config.rateAll now marks store.reputations)
    (othersConfined : Mark.Confined (second.accounts store) others)
    (othersRated : (store.apply now second).2.reputations =
      store.config.rateAll now others store.reputations) :
    { (store.apply now second).2.amid
        ⟨second.footprint store right, (store.apply now first).2, marks, now⟩ with events := [] } =
      { (store.apply now first).2.amid
        ⟨first.footprint store left, (store.apply now second).2, others, now⟩ with
        events := [] } := by
  have keeps := sound.keeps_apply now independent.onLeft
  have othersKeep := sound.keeps_apply now independent.onRight
  have config := sound.config_apply now first
  have othersConfig := sound.config_apply now second
  generalize (store.apply now first).2 = after at rated keeps config ⊢
  generalize (store.apply now second).2 = othersAfter at othersRated othersKeep othersConfig ⊢
  have venues : KeyMap.splice (· = right) othersAfter.venues after.venues =
      .splice (· = left) after.venues othersAfter.venues := by
    refine KeyMap.splice_comm _ _ ?_ othersKeep.venues keeps.venues
    rintro market rfl same
    exact independent.markets same.symm
  have jobMarkets :
      KeyMap.splice (second.newJob? = some ·) othersAfter.jobMarkets after.jobMarkets =
        .splice (first.newJob? = some ·) after.jobMarkets othersAfter.jobMarkets :=
    KeyMap.splice_comm _ _ independent.symm.newJobs othersKeep.jobMarkets keeps.jobMarkets
  have balances : othersAfter.balances.amid (second.accounts store) after.balances =
      after.balances.amid (first.accounts store) othersAfter.balances :=
    congrArg BalanceBook.mk
      (KeyMap.splice_comm _ _ independent.symm.accounts othersKeep.balances keeps.balances)
  have reputations : store.config.rateAll now marks othersAfter.reputations =
      store.config.rateAll now others after.reputations := by
    rw [rated, othersRated]
    have spares := othersConfined.spares independent.accounts
    exact (store.config.rateAll_comm now confined spares store.reputations).symm
  unfold amid Operation.footprint
  dsimp only
  rw [config, othersConfig, venues, jobMarkets, balances, reputations]

/-- With no events that wait, independent operations commute. -/
theorem Independent.commute_fresh (independent : store.Independent left right first second)
    (sound : store.Sound) (fresh : store.events = []) (now : Int64) :
    store.Commute now first second := by
  obtain ⟨marks, confined, rated⟩ := sound.marks_of_apply now first
  obtain ⟨others, othersConfined, othersRated⟩ := sound.marks_of_apply now second
  have firstLast := independent.apply_after sound fresh othersConfined othersRated
  have secondLast := independent.symm.apply_after sound fresh confined rated
  refine ⟨by rw [firstLast], by rw [secondLast], ?_, ?_⟩
  · rw [firstLast, secondLast]
    exact independent.state_eq sound confined rated othersConfined othersRated
  · refine ⟨(store.apply now first).2.events, (store.apply now second).2.events, ?_, ?_, ?_, ?_⟩
    · rw [fresh, List.nil_append]
    · rw [fresh, List.nil_append]
    · rw [secondLast, fresh, List.nil_append]
      rfl
    · rw [firstLast, fresh, List.nil_append]
      rfl

/-- Independence has nothing to do with the events that wait. -/
theorem Independent.forgetEvents (independent : store.Independent left right first second) :
    Independent { store with events := [] } left right first second where
  markets := independent.markets
  onLeft := by
    cases independent.onLeft with
    | market names => exact .market names
    | job id job names recorded => exact .job id job names recorded
  onRight := by
    cases independent.onRight with
    | market names => exact .market names
    | job id job names recorded => exact .job id job names recorded
  accounts := independent.accounts
  newJobs := independent.newJobs

/-- Earlier events that wait do not matter. -/
theorem Commute.withPast (commute : store.Commute now first second) (past : List Event) :
    (store.withPast past).Commute now first second := by
  have longer {after : Store} {told : List Event} (tells : after.events = store.events ++ told) :
      (after.withPast past).events = (store.withPast past).events ++ told := by
    unfold Store.withPast
    rw [tells, List.append_assoc]
  obtain ⟨told, others, firstTold, secondTold, inOrder, inReverse⟩ := commute.events
  constructor
  · rw [apply_withPast, apply_withPast, apply_withPast]
    exact commute.firstAnswer
  · rw [apply_withPast, apply_withPast, apply_withPast]
    exact commute.secondAnswer
  · rw [apply_withPast, apply_withPast, apply_withPast, apply_withPast]
    exact commute.state
  · rw [apply_withPast, apply_withPast, apply_withPast, apply_withPast]
    exact ⟨told, others, longer firstTold, longer secondTold, longer inOrder, longer inReverse⟩

/-- Whatever has been done with a store, two operations on different markets that move money of
different accounts and create no job under the same id commute: in either order both answer the
same, and leave the same store up to the order of their events. Neither changes the other's market,
with its queue, its vault and its jobs. -/
theorem independent_markets_commute {start : Store} (initial : start.Initial) (moves : List Move)
    (now : Int64) {left right : Key} {first second : Operation}
    (independent : (start.after moves).Independent left right first second) :
    (start.after moves).Commute now first second ∧
      ((start.after moves).apply now first).2.venues.get? right =
        (start.after moves).venues.get? right ∧
      ((start.after moves).apply now second).2.venues.get? left =
        (start.after moves).venues.get? left := by
  have sound := initial.sound.after moves
  generalize start.after moves = store at sound independent
  refine ⟨?_, independent.symm.venue_kept sound now, independent.venue_kept sound now⟩
  have fresh := independent.forgetEvents.commute_fresh sound.forgetEvents rfl now
  have whole : withPast store.events { store with events := [] } = store := by
    unfold withPast
    rw [List.append_nil]
  rw [← whole]
  exact fresh.withPast store.events

/-- A node completes a job in one market and lets one run out of time in another, all at once. -/
theorem independent_markets_commute_career :
    let store := (empty {enforceDeadline := false}).after (career.take 8)
    let left := Market.idOf (Key.ofBytes [1]) 0
    let right := Market.idOf (Key.ofBytes [1]) 1
    let finish : Operation :=
      .finishJob (Key.ofBytes [4]) (Key.ofBytes [3]) ⟨Word.ofNumber 6⟩
    (empty {enforceDeadline := false}).Initial ∧
    store.Independent left right finish (.sweep right) ∧
    store.Commute 90 finish (.sweep right) ∧
    (store.apply 90 finish).1.isOk = true ∧
    (store.apply 90 (.sweep right)).1 = .ok (.swept [Key.ofBytes [5], Key.ofBytes [6]]) := by
  intro store left right finish
  have initial : (empty {enforceDeadline := false}).Initial :=
    .opened {enforceDeadline := false} rfl
  have facts : left ≠ right ∧ (store.record? left (Key.ofBytes [4])).isSome = true ∧
      (∀ account ∈ finish.accounts store, account ∉ (Operation.sweep right).accounts store) ∧
      (store.apply 90 finish).1.isOk = true ∧
      (store.apply 90 (.sweep right)).1 = .ok (.swept [Key.ofBytes [5], Key.ofBytes [6]]) := by
    decide +kernel
  obtain ⟨apart, recorded, disjoint, finished, swept⟩ := facts
  obtain ⟨job, found⟩ := Option.isSome_iff_exists.1 recorded
  have independent : store.Independent left right finish (.sweep right) :=
    { markets := apart
      onLeft := .job (Key.ofBytes [4]) job rfl found
      onRight := .market rfl
      accounts := List.disjoint_left.2 disjoint
      newJobs := fun id made => by cases made }
  have commute := independent_markets_commute initial (career.take 8) 90 independent
  exact ⟨initial, independent, commute.1, finished, swept⟩

end ComputeMarket.Store
