import ComputeMarket.Proofs.Conservation
import ComputeMarket.Proofs.Store.Record

/-
This file proves when a job is refunded: a client may withdraw a job that waits, and anybody may
time out an open job past its deadline. Nothing stands against either but a client whose balance
has no room for the price.
-/

namespace ComputeMarket

namespace Job.Settlement

variable {config : Config} {now told : Int64} {job ended : Job} {payee market id client : Key}
  {price : Amount}

/-- A job that is told to be stopped was queued, and its client is paid. -/
theorem of_jobStopped (settlement :
      job.Settlement config now ended payee (.jobStopped market id client price told)) :
    ended = { job with state := .stopped, ended := now } ∧ payee = job.client ∧
      Event.jobStopped market id client price told =
        .jobStopped job.market job.id job.client job.price now := by
  cases settlement
  exact ⟨rfl, rfl, rfl⟩

/-- A job that is told to be late was open and expired, and its client is paid. -/
theorem of_jobTimedOut {node : Option Key} (settlement :
      job.Settlement config now ended payee (.jobTimedOut market id client node price told)) :
    ended = { job with state := .timedOut, ended := now } ∧ payee = job.client ∧
      Event.jobTimedOut market id client node price told =
        .jobTimedOut job.market job.id job.client job.node job.price now := by
  cases settlement
  exact ⟨rfl, rfl, rfl⟩

end Job.Settlement

namespace Store

/-- A call settles a job and pays its price back to its client. -/
structure Refunds (store : Store) (now : Int64) (call : Operation) (job : Job) (state : JobState) :
    Prop where
  answered : ∃ settled, (store.apply now call).1 = .ok (.jobSettled settled)
  recorded : (store.apply now call).2.record? job.market job.id =
    some { job with state, ended := now }
  paid : ((store.apply now call).2.balance job.client).base =
    (store.balance job.client).base + job.price.base

/-- A call refunds a job if the balance of its client has room for the price, and otherwise
changes nothing. -/
structure RefundsIfRoom (store : Store) (now : Int64) (call : Operation) (job : Job)
    (state : JobState) : Prop where
  refunds : (store.balance job.client).base + job.price.base < 0x10000000000000000 →
    store.Refunds now call job state
  refused : 0x10000000000000000 ≤ (store.balance job.client).base + job.price.base →
    store.apply now call = (.error (.overflow (.account job.client)), store)

variable {store : Store} {now : Int64} {market id : Key} {job settled : Job} {call : Operation}
  {state : JobState} {event : Event}

/-- What a sound store finds through its index is the record that it has. -/
theorem Sound.found_of_indexed (sound : store.Sound)
    (recorded : store.record? market id = some job) {place : Key} {venue : Venue}
    (indexed : store.jobMarkets.get? id = some place)
    (found : store.venues.get? place = some venue) : venue.jobs.get? id = some job := by
  obtain ⟨other, known⟩ := sound.indexed_iff.1 indexed
  obtain ⟨same, -⟩ := sound.market_unique recorded known
  subst same
  rw [← record?_of_found found]
  exact recorded

/-- A call that settles a job in one way only, and is refused for one reason only, refunds it if
there is room. -/
theorem Sound.refundsIfRoom (sound : store.Sound) (recorded : store.record? market id = some job)
    (refused : ∀ cause, call.Refused now store cause → cause = .overflow (.account job.client) ∧
      0x10000000000000000 ≤ (store.balance job.client).base + job.price.base)
    (does : ∀ reply changes, call.Does now reply changes →
      ∃ settled event, reply = .jobSettled settled ∧ changes = [.told event] ∧
        event.settledJob? = some id ∧
        ∀ ended payee, job.Settlement store.config now ended payee event →
          ended = { job with state, ended := now } ∧ payee = job.client) :
    store.RefundsIfRoom now call job state := by
  cases answer : (store.apply now call).1 with
  | error cause =>
      obtain ⟨why, same⟩ := apply_of_error now sound answer
      obtain ⟨rfl, large⟩ := refused cause why
      refine ⟨fun room => absurd room (Nat.not_lt.2 large), fun _ => ?_⟩
      exact Prod.ext answer same
  | ok reply =>
      obtain ⟨changes, done, steps⟩ := steps_of_apply now sound answer
      obtain ⟨settled, event, rfl, rfl, settles, refund⟩ := does reply changes done
      obtain ⟨place, known, ended, payee, found, settlement, last, paid⟩ :=
        steps.single.settlement settles
      obtain ⟨rfl, rfl⟩ := sound.market_unique recorded found
      obtain ⟨rfl, rfl⟩ := refund ended payee settlement
      obtain ⟨rfl, rfl⟩ := sound.names recorded
      -- the balance that was paid is an amount, so there was room
      have room := ((store.apply now call).2.balance job.client).base_lt
      rw [paid] at room
      exact ⟨fun _ => ⟨⟨settled, answer⟩, last, paid⟩, fun large => absurd room (Nat.not_lt.2 large)⟩

/-- Nothing refuses a client who withdraws a waiting job but a balance without room. -/
theorem Sound.overflow_of_cancel (sound : store.Sound)
    (recorded : store.record? market id = some job) (queued : job.state = .queued)
    {cause : MarketError} (refused : (Operation.cancelJob id job.client).Refused now store cause) :
    cause = .overflow (.account job.client) ∧
      0x10000000000000000 ≤ (store.balance job.client).base + job.price.base := by
  cases refused with
  | unknownMarket _ place names => cases names
  | unknownJob _ missing names unindexed =>
      cases names
      rw [sound.indexed_iff.2 ⟨job, recorded⟩] at unindexed
      cases unindexed
  | cancel _ _ place venue _ indexed found why =>
      have known := sound.found_of_indexed recorded indexed found
      cases why with
      | unknown missing =>
          rw [known] at missing
          cases missing
      | foreign other filed different =>
          rw [known] at filed
          cases filed
          exact absurd rfl different
      | moved other filed started =>
          rw [known] at filed
          cases filed
          exact absurd queued started
      | overflow other filed large =>
          rw [known] at filed
          cases filed
          exact ⟨rfl, large⟩

/-- Nothing refuses to time out a job past its deadline but a client's balance without room. -/
theorem Sound.overflow_of_timeout (sound : store.Sound)
    (recorded : store.record? market id = some job) {deadline : Int64}
    (due : job.deadline store.config.expiry = some deadline) (passed : deadline < now)
    {cause : MarketError} (refused : (Operation.timeoutJob id).Refused now store cause) :
    cause = .overflow (.account job.client) ∧
      0x10000000000000000 ≤ (store.balance job.client).base + job.price.base := by
  cases refused with
  | unknownMarket _ place names => cases names
  | unknownJob _ missing names unindexed =>
      cases names
      rw [sound.indexed_iff.2 ⟨job, recorded⟩] at unindexed
      cases unindexed
  | timeout _ place venue _ indexed found why =>
      have known := sound.found_of_indexed recorded indexed found
      exact why.overflow_of_isExpired known (Job.isExpired_iff.2 ⟨deadline, due, passed⟩)

/-- The client of a queued job can cancel it and gets the price back, if there is room. -/
theorem Sound.cancel_refunds (sound : store.Sound)
    (recorded : store.record? market id = some job) (queued : job.state = .queued) :
    store.RefundsIfRoom now (.cancelJob id job.client) job .stopped := by
  apply sound.refundsIfRoom recorded
  · intro cause refused
    exact sound.overflow_of_cancel recorded queued refused
  · intro reply changes does
    cases does with
    | cancelled _ settled =>
        refine ⟨settled, _, rfl, rfl, rfl, ?_⟩
        intro ended payee settlement
        obtain ⟨same, pays, -⟩ := settlement.of_jobStopped
        exact ⟨same, pays⟩

/-- A job past its deadline can be timed out and its client gets the price back, if there is room.
-/
theorem Sound.timeout_refunds (sound : store.Sound)
    (recorded : store.record? market id = some job) {deadline : Int64}
    (due : job.deadline store.config.expiry = some deadline) (passed : deadline < now) :
    store.RefundsIfRoom now (.timeoutJob id) job .timedOut := by
  apply sound.refundsIfRoom recorded
  · intro cause refused
    exact sound.overflow_of_timeout recorded due passed refused
  · intro reply changes does
    cases does with
    | timedOut settled =>
        refine ⟨settled, _, rfl, rfl, rfl, ?_⟩
        intro ended payee settlement
        obtain ⟨same, pays, -⟩ := settlement.of_jobTimedOut
        exact ⟨same, pays⟩

/-- The price of an open job is part of what its client has spent. -/
theorem price_le_spent (recorded : store.record? market id = some job)
    (unsettled : job.isOpen = true) : job.price.base ≤ store.spent job.client := by
  obtain ⟨venue, found, filed⟩ := record?_eq_some.1 recorded
  have paid : job.spentBy job.client = job.price.base := by
    obtain queued | running := JobState.isOpen_iff.1 unsettled
    · simp [Job.spentBy, queued]
    · simp [Job.spentBy, running]
  have part := KeyMap.le_total (Job.spentBy job.client) filed
  have whole := KeyMap.le_total (fun venue => venue.jobs.total (Job.spentBy job.client)) found
  rw [paid] at part
  exact part.trans whole

/-- In a store that starts empty, whatever was done with it, a waiting job is refunded when its
client withdraws it, and an open job past its deadline is refunded when anybody times it out,
unless the balance of the client would overflow; then the call is refused for that reason and
changes nothing. There is room as long as the deposits of the client and what it has earned fit
an amount together. -/
theorem refund_unless_overflow {config : Config} {start : Store} (opened : new config = .ok start)
    (moves : List Move) :
    ∀ market id job, (start.after moves).record? market id = some job →
      (job.state = .queued → ∀ now,
        (start.after moves).RefundsIfRoom now (.cancelJob id job.client) job .stopped) ∧
      (∀ deadline, job.isOpen = true → job.deadline config.expiry = some deadline →
        ∀ now, deadline < now →
          (start.after moves).RefundsIfRoom now (.timeoutJob id) job .timedOut) ∧
      (job.isOpen = true →
        paidInto job.client (start.deposits moves) + (start.after moves).earned job.client <
          0x10000000000000000 →
        ((start.after moves).balance job.client).base + job.price.base < 0x10000000000000000) := by
  intro market id job recorded
  have startSound := sound_of_new opened
  have sound := startSound.after moves
  have follows := startSound.follows_after moves
  have sameConfig := startSound.config_after moves
  obtain ⟨-, same⟩ := Guard.unit_bind_eq_ok.1 opened
  cases same
  refine ⟨?_, ?_, ?_⟩
  · intro queued now
    exact sound.cancel_refunds recorded queued
  · intro deadline unsettled due now passed
    apply sound.timeout_refunds recorded _ passed
    rw [sameConfig]
    exact due
  · intro unsettled fits
    have exact := follows.account job.client
    have paid := price_le_spent recorded unsettled
    change _ + _ + 0 = 0 + 0 + _ + _ at exact
    omega

/-- The job of `trade` while it waits. -/
def waitingJob : Job :=
  Job.ofRequest ⟨Key.ofBytes [4], ⟨Word.ofNumber 5⟩, 8, .any⟩ (Market.idOf (Key.ofBytes [1]) 0)
    (Key.ofBytes [2]) (.ofTokens 2) 60 3

theorem refund_unless_overflow_trade :
    new {} = .ok (empty {}) ∧
    ((empty {}).after (trade.take 4)).record? waitingJob.market waitingJob.id = some waitingJob ∧
    ((empty {}).after (trade.take 4)).Refunds 5 (.cancelJob waitingJob.id waitingJob.client)
      waitingJob .stopped ∧
    ((empty {}).after (trade.take 4)).Refunds 64 (.timeoutJob waitingJob.id)
      waitingJob .timedOut := by
  have opened : new {} = .ok (empty {}) := rfl
  have recorded : ((empty {}).after (trade.take 4)).record? waitingJob.market waitingJob.id =
      some waitingJob := by decide +kernel
  have fits : paidInto waitingJob.client ((empty {}).deposits (trade.take 4)) +
      ((empty {}).after (trade.take 4)).earned waitingJob.client < 0x10000000000000000 := by
    decide +kernel
  obtain ⟨cancel, timeout, room⟩ := refund_unless_overflow opened (trade.take 4) _ _ _ recorded
  have roomy := room rfl fits
  have passed : (63 : Int64) < 64 := by decide
  exact ⟨opened, recorded, (cancel rfl 5).refunds roomy,
    (timeout 63 rfl rfl 64 passed).refunds roomy⟩

/-- A history in which a client with a waiting job fills its own balance. -/
def hoard : List Move :=
  trade.take 4 ++ [.perform 4 (.deposit waitingJob.client (.ofTokens 18446744073708))]

/-- A deposit of the client itself stands against its refund, before the deadline and after it. -/
theorem refund_blocked_by_deposit :
    new {} = .ok (empty {}) ∧
    ((empty {}).after hoard).record? waitingJob.market waitingJob.id = some waitingJob ∧
    waitingJob.state = .queued ∧
    (((empty {}).after hoard).apply 5 (.cancelJob waitingJob.id waitingJob.client)).1 =
      .error (.overflow (.account waitingJob.client)) ∧
    waitingJob.isOpen = true ∧ waitingJob.deadline (empty {}).config.expiry = some 63 ∧
    (63 : Int64) < 64 ∧
    (((empty {}).after hoard).apply 64 (.timeoutJob waitingJob.id)).1 =
      .error (.overflow (.account waitingJob.client)) := by
  refine ⟨rfl, ?_, rfl, ?_, rfl, rfl, ?_, ?_⟩
  · decide +kernel
  · decide +kernel
  · decide
  · decide +kernel

end Store

end ComputeMarket
