import ComputeMarket.Proofs.Refund

/-
This file proves that the branches of the code that only a broken store could need are never
taken: no operation reports a violation, and of the internal errors only the overflow of a balance
that receives, or of a vault, is ever reported.
-/

namespace ComputeMarket

/-- Terms are refused as invalid input only. -/
theorem MarketParams.validate_eq_error {params : MarketParams} {cause : MarketError}
    (invalid : params.validate = .error cause) : ∃ fault, cause = .invalidInput fault := by
  unfold validate at invalid
  split at invalid
  · cases invalid
    exact ⟨_, rfl⟩
  · split at invalid
    · cases invalid
      exact ⟨_, rfl⟩
    · cases invalid

namespace Desk

variable {config : Config} {now : Int64} {desk after : Desk} {event : Event} {id : Key}

/-- A settlement touches the record of its own job only. -/
theorem Step.get?_of_settles (step : Step config now desk event after)
    (settles : event.settledJob? = some id) {other : Key} (different : id ≠ other) :
    after.venue.jobs.get? other = desk.venue.jobs.get? other := by
  cases step with
  | nodeQueued => cases settles
  | headMatched => cases settles
  | nodeDelisted => cases settles
  | settled job ended payee event rest total recorded settlement =>
      have same : job.id = id := by
        cases settlement <;> exact Option.some.inj settles
      exact KeyMap.get?_insert_of_ne _ _ (same ▸ different)

/-- Timeouts of other jobs leave a record as it is. -/
theorem Timeouts.get?_of_not_mem {ids : List Key} {ended : List (Job × Event)}
    (timeouts : Timeouts config now desk ids ended after) (absent : id ∉ ids) :
    after.venue.jobs.get? id = desk.venue.jobs.get? id := by
  induction timeouts with
  | none desk => rfl
  | passed other cause refused rest inductionHypothesis =>
      exact inductionHypothesis fun member => absent (List.mem_cons_of_mem _ member)
  | ended late first recorded rest inductionHypothesis =>
      rw [List.mem_cons, not_or] at absent
      rw [inductionHypothesis absent.2]
      exact first.get?_of_settles rfl (Ne.symm absent.1)

/-- Timeouts one after the other keep a ledger sound. -/
theorem Timeouts.sound {ids : List Key} {ended : List (Job × Event)}
    (timeouts : Timeouts config now desk ids ended after) (sound : desk.venue.Sound) :
    after.venue.Sound := by
  induction timeouts with
  | none desk => exact sound
  | passed other cause refused rest inductionHypothesis => exact inductionHypothesis sound
  | ended late first recorded rest inductionHypothesis =>
      exact inductionHypothesis (first.sound sound)

/-- What becomes of one job of a sweep when its turn comes: if it cannot be ended, then because
its client has no room for the price, and nothing has changed. -/
theorem timeoutJob_of_overdue (desk : Desk) (sound : desk.venue.Sound) {before rest : List Key}
    (overdue : desk.venue.overdueJobs now config.expiry = before ++ id :: rest) :
    ∃ ended middle, (timeoutJobs config.expiry now before).run desk = .ok ended middle ∧
      ∀ cause left, (timeoutJob id config.expiry now).run middle = .error cause left →
        left = middle ∧ ∃ job, desk.venue.jobs.get? id = some job ∧
          cause = .overflow (.account job.client) ∧
          0x10000000000000000 ≤ (middle.balances.balance job.client).base + job.price.base := by
  have filed := fun id job recorded => (sound.filed id job recorded).1
  have distinct : (desk.venue.overdueJobs now config.expiry).Nodup :=
    Venue.nodup_overdueJobs filed
  have listed : id ∈ desk.venue.overdueJobs now config.expiry := by
    rw [overdue]
    exact List.mem_append_right before List.mem_cons_self
  obtain ⟨job, recorded, -, late⟩ := (Venue.mem_overdueJobs filed).1 listed
  have absent : id ∉ before := by
    intro member
    rw [overdue] at distinct
    exact (List.nodup_append.1 distinct).2.2 id member id List.mem_cons_self rfl
  obtain ⟨ended, middle, ran, timeouts⟩ := timeoutJobs_outcome config now before sound
  have kept : middle.venue.jobs.get? id = some job :=
    (timeouts.get?_of_not_mem absent).trans recorded
  refine ⟨ended, middle, ran, ?_⟩
  intro cause left failed
  have outcome := timeoutJob_outcome middle (timeouts.sound sound) id config now
  obtain ⟨refused, same⟩ := outcome.of_error failed
  exact ⟨same, job, recorded, refused.overflow_of_isExpired kept late⟩

end Desk

namespace Store

/-- An operation is asked to put an amount where there is no room for it: on the balance that
receives it, or in the vault of a market. -/
inductive Overflows (store : Store) : Operation → Holder → Prop
  | deposit (account : Key) (amount : Amount)
      (large : 0x10000000000000000 ≤ (store.balance account).base + amount.base) :
      Overflows store (.deposit account amount) (.account account)
  | payout (market id node : Key) (result : Digest) (job : Job)
      (recorded : store.record? market id = some job)
      (large : 0x10000000000000000 ≤ (store.balance node).base + job.price.base) :
      Overflows store (.finishJob id node result) (.account node)
  | withdrawal (market id client : Key) (job : Job) (recorded : store.record? market id = some job)
      (large : 0x10000000000000000 ≤ (store.balance client).base + job.price.base) :
      Overflows store (.cancelJob id client) (.account client)
  | refund (market id : Key) (job : Job) (recorded : store.record? market id = some job)
      (large : 0x10000000000000000 ≤ (store.balance job.client).base + job.price.base) :
      Overflows store (.timeoutJob id) (.account job.client)
  | escrow (market client : Key) (request : JobRequest) (venue : Venue)
      (found : store.venues.get? market = some venue)
      (large : 0x10000000000000000 ≤ venue.vault.balance.base + venue.market.params.price.base) :
      Overflows store (.createJob market client request) (.vault venue.vault.address)

/-- No branch is taken that only a broken store could need, whatever is asked of the store at
whatever time. -/
structure NoFallback (store : Store) : Prop where
  unviolated : ∀ now operation violation,
    (store.apply now operation).1 ≠ .error (.violation violation)
  queried : ∀ market cause,
    store.audit market = .error cause ∨ store.vaultBalance market = .error cause ∨
      store.jobsOf market = .error cause → cause = .marketNotFound market
  missing : ∀ now operation id, (store.apply now operation).1 = .error (.jobNotFound id) →
    operation.job? = some id ∧ ∀ market, store.record? market id = none
  internal : ∀ now operation cause, (store.apply now operation).1 = .error cause →
    cause.kind = .internal → ∃ holder, cause = .overflow holder ∧ store.Overflows operation holder
  /-- A sweep has ended what it could of the jobs before one when it comes to that job. -/
  swept : ∀ now market venue before id rest, store.venues.get? market = some venue →
    venue.overdueJobs now store.config.expiry = before ++ id :: rest →
    ∃ ended desk, (Desk.timeoutJobs store.config.expiry now before).run ⟨venue, store.balances⟩ =
        .ok ended desk ∧
      ∀ cause left, (Desk.timeoutJob id store.config.expiry now).run desk = .error cause left →
        left = desk ∧ ∃ job, venue.jobs.get? id = some job ∧
          cause = .overflow (.account job.client) ∧
          0x10000000000000000 ≤ (desk.balances.balance job.client).base + job.price.base
  /-- The balance after a debit is a true difference. -/
  debited : ∀ account amount rest balances,
    store.balances.debit account amount = .ok (rest, balances) →
    (store.balances.balance account).sub? amount = some rest
  /-- The deadline that a refusal tells is the deadline of the job. -/
  expired : ∀ now operation id deadline,
    (store.apply now operation).1 = .error (.expired id deadline) →
    ∃ market job, store.record? market id = some job ∧
      job.deadline store.config.expiry = some deadline ∧ deadline < now

variable {store : Store} {now : Int64} {operation : Operation} {market id : Key}
  {cause : MarketError}

theorem Sound.audit_eq_ok (sound : store.Sound) {venue : Venue}
    (found : store.venues.get? market = some venue) : venue.audit = .ok () := by
  have ledger := sound.ledgers market venue found
  have filed := fun id job recorded => (ledger.filed id job recorded).1
  exact (Venue.audit_eq_ok_iff_sound filed).2 ledger

/-- A query about a market is refused only where the market is not open. -/
theorem Sound.marketNotFound_of_query (sound : store.Sound)
    (refused : store.audit market = .error cause ∨ store.vaultBalance market = .error cause ∨
      store.jobsOf market = .error cause) : cause = .marketNotFound market := by
  unfold audit vaultBalance jobsOf venue? at refused
  cases found : store.venues.get? market with
  | none =>
      rw [found] at refused
      rcases refused with refused | refused | refused
      all_goals
        cases refused
        rfl
  | some venue =>
      rw [found] at refused
      rcases refused with refused | refused | refused
      · change venue.audit = _ at refused
        rw [sound.audit_eq_ok found] at refused
        cases refused
      · cases refused
      · cases refused

/-- A job that the index knows has a record where the index says. -/
theorem Sound.get?_ne_none_of_indexed (sound : store.Sound) {venue : Venue}
    (indexed : store.jobMarkets.get? id = some market)
    (found : store.venues.get? market = some venue) : venue.jobs.get? id ≠ none := by
  intro missing
  obtain ⟨job, recorded⟩ := sound.indexed_iff.1 indexed
  rw [record?_of_found found, missing] at recorded
  cases recorded

/-- Of the internal errors, an operation is refused with an overflow only. -/
theorem overflows_of_internal (refused : operation.Refused now store cause)
    (internal : cause.kind = .internal) :
    ∃ holder, cause = .overflow holder ∧ store.Overflows operation holder := by
  cases refused with
  | unknownMarket => cases internal
  | unknownJob => cases internal
  | terms authority params cause invalid =>
      obtain ⟨fault, rfl⟩ := MarketParams.validate_eq_error invalid
      cases internal
  | exhausted => cases internal
  | usedJob => cases internal
  | entry market client request venue cause found why =>
      cases why with
      | overflow large => exact ⟨_, rfl, .escrow market client request venue found large⟩
      | _ => cases internal
  | listing market node stake venue cause found why => cases why <;> cases internal
  | delisting market node venue cause found why =>
      cases why
      cases internal
  | finish id node result market venue cause indexed found why =>
      cases why with
      | overflow job recorded large =>
          exact ⟨_, rfl, .payout market id node result job
            (record?_eq_some.2 ⟨venue, found, recorded⟩) large⟩
      | _ => cases internal
  | cancel id client market venue cause indexed found why =>
      cases why with
      | overflow job recorded large =>
          exact ⟨_, rfl, .withdrawal market id client job
            (record?_eq_some.2 ⟨venue, found, recorded⟩) large⟩
      | _ => cases internal
  | timeout id market venue cause indexed found why =>
      cases why with
      | overflow job recorded late large =>
          exact ⟨_, rfl, .refund market id job
            (record?_eq_some.2 ⟨venue, found, recorded⟩) large⟩
      | _ => cases internal
  | nothingPaid => cases internal
  | overflow account amount large => exact ⟨_, rfl, .deposit account amount large⟩

/-- A job that is said not to be found is the one that was asked for, and no market has it. -/
theorem Sound.unrecorded_of_jobNotFound (sound : store.Sound)
    (refused : operation.Refused now store (.jobNotFound id)) :
    operation.job? = some id ∧ ∀ market, store.record? market id = none := by
  cases refused with
  | unknownJob _ _ names missing =>
      refine ⟨names, fun market => ?_⟩
      cases recorded : store.record? market id with
      | none => rfl
      | some job =>
          rw [sound.indexed_iff.2 ⟨job, recorded⟩] at missing
          cases missing
  | terms authority params _ invalid =>
      obtain ⟨fault, told⟩ := MarketParams.validate_eq_error invalid
      cases told
  | entry market client request venue _ found why => cases why
  | listing market node stake venue _ found why => cases why
  | delisting market node venue _ found why => cases why
  | finish _ node result market venue _ indexed found why =>
      cases why with
      | unknown missing => exact absurd missing (sound.get?_ne_none_of_indexed indexed found)
  | cancel _ client market venue _ indexed found why =>
      cases why with
      | unknown missing => exact absurd missing (sound.get?_ne_none_of_indexed indexed found)
  | timeout _ market venue _ indexed found why =>
      cases why with
      | unknown missing => exact absurd missing (sound.get?_ne_none_of_indexed indexed found)

/-- A job that is said to be past its deadline is on record with that deadline. -/
theorem deadline_of_expired {deadline : Int64}
    (refused : operation.Refused now store (.expired id deadline)) :
    ∃ market job, store.record? market id = some job ∧
      job.deadline store.config.expiry = some deadline ∧ deadline < now := by
  cases refused with
  | terms authority params _ invalid =>
      obtain ⟨fault, told⟩ := MarketParams.validate_eq_error invalid
      cases told
  | entry market client request venue _ found why => cases why
  | listing market node stake venue _ found why => cases why
  | delisting market node venue _ found why => cases why
  | finish _ node result market venue _ indexed found why =>
      cases why with
      | late job _ recorded enforced due passed =>
          exact ⟨market, job, record?_eq_some.2 ⟨venue, found, recorded⟩, due, passed⟩
  | cancel _ client market venue _ indexed found why => cases why
  | timeout _ market venue _ indexed found why => cases why

/-- No branch that is there for a broken store is taken in a sound one. -/
theorem Sound.noFallback (sound : store.Sound) : store.NoFallback where
  unviolated now operation violation failed := by
    obtain ⟨refused, -⟩ := apply_of_error now sound failed
    obtain ⟨holder, told, -⟩ := overflows_of_internal refused rfl
    cases told
  queried market cause refused := sound.marketNotFound_of_query refused
  missing now operation id failed := by
    obtain ⟨refused, -⟩ := apply_of_error now sound failed
    exact sound.unrecorded_of_jobNotFound refused
  internal now operation cause failed kind := by
    obtain ⟨refused, -⟩ := apply_of_error now sound failed
    exact overflows_of_internal refused kind
  swept now market venue before id rest found overdue :=
    Desk.timeoutJob_of_overdue ⟨venue, store.balances⟩ (sound.ledgers market venue found) overdue
  debited account amount rest balances done :=
    Amount.sub?_eq_some.2 (BalanceBook.debit_eq_ok.1 done).1
  expired now operation id deadline failed := by
    obtain ⟨refused, -⟩ := apply_of_error now sound failed
    exact deadline_of_expired refused

/-- Whatever has been done with a store, nothing that could be asked of it now takes a branch that
only a broken store could need. -/
theorem fallbacks_unreachable {start : Store} (initial : start.Initial) (moves : List Move) :
    (start.after moves).NoFallback :=
  (initial.sound.after moves).noFallback

/-- A sweep of this store passes over a late job, and for the reason that remains. -/
theorem fallbacks_unreachable_hoard :
    (empty {}).Initial ∧ ((empty {}).after hoard).NoFallback ∧
      ((empty {}).after hoard).apply 64 (.sweep waitingJob.market) =
        (.ok (.swept []), (empty {}).after hoard) :=
  ⟨.opened {} rfl, fallbacks_unreachable (.opened {} rfl) hoard, by decide +kernel⟩

end Store

end ComputeMarket
