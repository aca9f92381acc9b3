import ComputeMarket.Transition
import ComputeMarket.Proofs.Settlement

/-
This file lists what can happen to the ledger of one market, and why a request is refused.
-/

namespace ComputeMarket

/-- The event of a timeout, from the record that it left. -/
def Job.timeoutEvent (late : Job) (now : Int64) : Event :=
  .jobTimedOut late.market late.id late.client late.node late.price now

namespace Desk

/-- The desk with another queue. -/
def withQueue (desk : Desk) (queue : Queue) : Desk :=
  { desk with venue := { desk.venue with market := { desk.venue.market with queue } } }

/-- What a settlement leaves behind: the job left the queue if it waited there, its price left
the vault, and the payee has it. -/
def settle (desk : Desk) (job ended : Job) (payee : Key) (rest total : Amount) : Desk where
  venue :=
    { market :=
        { desk.venue.market with
          queue :=
            if job.state = .queued then desk.venue.market.queue.remove .job job.id
            else desk.venue.market.queue }
      vault := { desk.venue.vault with balance := rest }
      jobs := desk.venue.jobs.insert job.id ended }
  balances := ⟨desk.balances.accounts.insert payee total⟩

/-- What can happen to a ledger without a new job: a node waits, a node takes the job at the head
of the queue, a node leaves the queue, or a job is settled. -/
inductive Step (config : Config) (now : Int64) (desk : Desk) : Event → Desk → Prop
  | nodeQueued (node : Key) (place : Nat) (queue : Queue)
      (submitted : desk.venue.market.queue.submit .node node config.capacity =
        .ok (.queued place, queue)) :
      Step config now desk (.nodeQueued desk.venue.market.id node (Count.ofNat place) now)
        { desk with venue := { desk.venue with market :=
          { desk.venue.market with queue, listingCount := desk.venue.market.listingCount.next } } }
  | headMatched (node : Key) (waiting : Job) (queue : Queue)
      (submitted : desk.venue.market.queue.submit .node node config.capacity =
        .ok (.matched waiting.id, queue))
      (recorded : desk.venue.jobs.get? waiting.id = some waiting)
      (queued : waiting.state = .queued) (free : waiting.node = none) :
      Step config now desk (.jobMatched desk.venue.market.id waiting.id node now)
        { desk with venue := { desk.venue with
          market :=
            { desk.venue.market with queue, listingCount := desk.venue.market.listingCount.next }
          jobs := desk.venue.jobs.insert waiting.id
            { waiting with node := some node, state := .running, started := now } } }
  | nodeDelisted (node : Key) (listed : desk.venue.market.queue.contains .node node = true) :
      Step config now desk (.nodeDelisted desk.venue.market.id node now)
        (desk.withQueue (desk.venue.market.queue.remove .node node))
  | settled (job ended : Job) (payee : Key) (event : Event) (rest total : Amount)
      (recorded : desk.venue.jobs.get? job.id = some job)
      (settlement : job.Settlement config now ended payee event)
      (released : rest.base + job.price.base = desk.venue.vault.balance.base)
      (credited : total.base = (desk.balances.balance payee).base + job.price.base) :
      Step config now desk event (desk.settle job ended payee rest total)

/-- The event of a listing. -/
def listing (market node : Key) (now : Int64) : NodeAdmission → Event
  | .queued position => .nodeQueued market node position now
  | .matched job => .jobMatched market job node now

/-- What a new job needs: a definition, an id that is free here, and a client who can pay. -/
structure Admissible (desk : Desk) (client : Key) (request : JobRequest) (rest total : Amount) :
    Prop where
  defined : request.definition ≠ .zero
  fresh : desk.venue.jobs.get? request.id = none
  paid : rest.base + desk.venue.market.params.price.base = (desk.balances.balance client).base
  escrowed : total.base = desk.venue.vault.balance.base + desk.venue.market.params.price.base

/-- What a new job leaves behind: its record, the queue after it, and its price in the vault. -/
def enter (desk : Desk) (client : Key) (job : Job) (queue : Queue) (rest total : Amount) :
    Desk where
  venue :=
    { market :=
        { desk.venue.market with queue, jobCount := desk.venue.market.jobCount.next }
      vault := { desk.venue.vault with balance := total }
      jobs := desk.venue.jobs.insert job.id job }
  balances := ⟨desk.balances.accounts.insert client rest⟩

/-- The record of a request, before any node. -/
def draft (desk : Desk) (client : Key) (request : JobRequest) (now : Int64) : Job :=
  Job.ofRequest request desk.venue.market.id client desk.venue.market.params.price
    desk.venue.market.params.timeout now

/-- What can come of a new job: it waits last in the queue, or it takes the first idle node. -/
inductive Entry (client : Key) (request : JobRequest) (capacity : Count) (now : Int64)
    (desk : Desk) : JobAdmission → Event → Desk → Prop
  | queued (place : Nat) (queue : Queue) (rest total : Amount)
      (admissible : desk.Admissible client request rest total)
      (submitted : desk.venue.market.queue.submit .job request.id capacity =
        .ok (.queued place, queue)) :
      Entry client request capacity now desk (.queued (Count.ofNat place))
        (.jobQueued desk.venue.market.id request.id (Count.ofNat place) now)
        (desk.enter client (desk.draft client request now) queue rest total)
  | matched (node : Key) (queue : Queue) (rest total : Amount)
      (admissible : desk.Admissible client request rest total)
      (submitted : desk.venue.market.queue.submit .job request.id capacity =
        .ok (.matched node, queue)) :
      Entry client request capacity now desk (.matched node)
        (.jobMatched desk.venue.market.id request.id node now)
        (desk.enter client
          { desk.draft client request now with
            node := some node, state := .running, started := now }
          queue rest total)

/-- Why a new job is refused. A job that finds an idle node needs no room in the queue. -/
inductive EntryRefusal (client : Key) (request : JobRequest) (capacity : Count) (desk : Desk) :
    MarketError → Prop
  | undefined (zero : request.definition = .zero) :
      EntryRefusal client request capacity desk (.invalidInput .zeroDefinition)
  | known (recorded : desk.venue.jobs.contains request.id = true) :
      EntryRefusal client request capacity desk (.duplicate .job request.id)
  | poor (short : (desk.balances.balance client).base < desk.venue.market.params.price.base) :
      EntryRefusal client request capacity desk
        (.insufficientFunds desk.venue.market.params.price (desk.balances.balance client))
  | overflow (large : 0x10000000000000000 ≤
        desk.venue.vault.balance.base + desk.venue.market.params.price.base) :
      EntryRefusal client request capacity desk (.overflow (.vault desk.venue.vault.address))
  | queueFull (unserved : desk.venue.market.queue.entriesOf .node = [])
      (full : capacity.value ≤ (desk.venue.market.queue.entriesOf .job).length) :
      EntryRefusal client request capacity desk (.queueFull capacity)

/-- Why a node is refused. A node that finds a waiting job needs no room in the queue. -/
inductive ListingRefusal (node : Key) (stake : Stake) (capacity : Count) (desk : Desk) :
    MarketError → Prop
  | poor (short : stake.units < desk.venue.market.params.minimumStake.units) :
      ListingRefusal node stake capacity desk
        (.insufficientStake desk.venue.market.params.minimumStake stake)
  | waiting (idle : desk.venue.market.queue.entriesOf .job = [])
      (listed : node ∈ desk.venue.market.queue.entriesOf .node) :
      ListingRefusal node stake capacity desk (.duplicate .node node)
  | queueFull (idle : desk.venue.market.queue.entriesOf .job = [])
      (unlisted : node ∉ desk.venue.market.queue.entriesOf .node)
      (full : capacity.value ≤ (desk.venue.market.queue.entriesOf .node).length) :
      ListingRefusal node stake capacity desk (.queueFull capacity)

/-- Why a node is not taken out of the queue. -/
inductive DelistingRefusal (node : Key) (desk : Desk) : MarketError → Prop
  | unlisted (missing : node ∉ desk.venue.market.queue.entriesOf .node) :
      DelistingRefusal node desk (.nodeNotQueued node)

/-- Why a result is refused. -/
inductive FinishRefusal (config : Config) (now : Int64) (id node : Key) (result : Digest)
    (desk : Desk) : MarketError → Prop
  | unknown (missing : desk.venue.jobs.get? id = none) :
      FinishRefusal config now id node result desk (.jobNotFound id)
  | foreign (job : Job) (recorded : desk.venue.jobs.get? id = some job)
      (unbound : job.node ≠ some node) :
      FinishRefusal config now id node result desk (.unauthorized node .boundNode id)
  | moved (job : Job) (recorded : desk.venue.jobs.get? id = some job)
      (ended : job.state ≠ .running) :
      FinishRefusal config now id node result desk (.invalidTransition id job.state .completed)
  | empty (zero : result = .zero) :
      FinishRefusal config now id node result desk (.invalidInput .zeroResult)
  | late (job : Job) (deadline : Int64) (recorded : desk.venue.jobs.get? id = some job)
      (enforced : config.enforceDeadline = true) (due : job.deadline config.expiry = some deadline)
      (passed : deadline < now) :
      FinishRefusal config now id node result desk (.expired id deadline)
  | overflow (job : Job) (recorded : desk.venue.jobs.get? id = some job)
      (large : 0x10000000000000000 ≤ (desk.balances.balance node).base + job.price.base) :
      FinishRefusal config now id node result desk (.overflow (.account node))

/-- Why a job is not withdrawn. -/
inductive CancelRefusal (id client : Key) (desk : Desk) : MarketError → Prop
  | unknown (missing : desk.venue.jobs.get? id = none) :
      CancelRefusal id client desk (.jobNotFound id)
  | foreign (job : Job) (recorded : desk.venue.jobs.get? id = some job)
      (other : job.client ≠ client) :
      CancelRefusal id client desk (.unauthorized client .client id)
  | moved (job : Job) (recorded : desk.venue.jobs.get? id = some job)
      (started : job.state ≠ .queued) :
      CancelRefusal id client desk (.invalidTransition id job.state .stopped)
  | overflow (job : Job) (recorded : desk.venue.jobs.get? id = some job)
      (large : 0x10000000000000000 ≤ (desk.balances.balance client).base + job.price.base) :
      CancelRefusal id client desk (.overflow (.account client))

/-- Why a job is not timed out. -/
inductive TimeoutRefusal (config : Config) (now : Int64) (id : Key) (desk : Desk) :
    MarketError → Prop
  | unknown (missing : desk.venue.jobs.get? id = none) :
      TimeoutRefusal config now id desk (.jobNotFound id)
  | moved (job : Job) (recorded : desk.venue.jobs.get? id = some job)
      (endless : job.deadline config.expiry = none) :
      TimeoutRefusal config now id desk (.invalidTransition id job.state .timedOut)
  | early (job : Job) (deadline : Int64) (recorded : desk.venue.jobs.get? id = some job)
      (due : job.deadline config.expiry = some deadline) (pending : now ≤ deadline) :
      TimeoutRefusal config now id desk (.notTimedOut id deadline now)
  | overflow (job : Job) (recorded : desk.venue.jobs.get? id = some job)
      (late : job.isExpired now config.expiry = true)
      (large : 0x10000000000000000 ≤ (desk.balances.balance job.client).base + job.price.base) :
      TimeoutRefusal config now id desk (.overflow (.account job.client))

/-- A job past its deadline is not timed out for one reason only: its client has no room for the
price. -/
theorem TimeoutRefusal.overflow_of_isExpired {config : Config} {now : Int64} {desk : Desk}
    {id : Key} {cause : MarketError} {job : Job}
    (refused : TimeoutRefusal config now id desk cause)
    (recorded : desk.venue.jobs.get? id = some job)
    (late : job.isExpired now config.expiry = true) :
    cause = .overflow (.account job.client) ∧
      0x10000000000000000 ≤ (desk.balances.balance job.client).base + job.price.base := by
  obtain ⟨deadline, due, passed⟩ := Job.isExpired_iff.1 late
  cases refused with
  | unknown missing =>
      rw [recorded] at missing
      cases missing
  | moved other found endless =>
      rw [recorded] at found
      cases found
      rw [due] at endless
      cases endless
  | early other limit found planned pending =>
      rw [recorded] at found
      cases found
      rw [due, Option.some.injEq] at planned
      subst planned
      exact absurd passed (Int64.not_lt.2 pending)
  | overflow other found late large =>
      rw [recorded] at found
      cases found
      exact ⟨rfl, large⟩

/-- Timeouts of given jobs one after the other, each told with the record that it leaves. A job
that cannot be timed out is passed over. -/
inductive Timeouts (config : Config) (now : Int64) :
    Desk → List Key → List (Job × Event) → Desk → Prop
  | none (desk : Desk) : Timeouts config now desk [] [] desk
  | ended {desk middle after : Desk} {ids : List Key} {others : List (Job × Event)} (late : Job)
      (first : Step config now desk (late.timeoutEvent now) middle)
      (recorded : middle.venue.jobs.get? late.id = some late)
      (rest : Timeouts config now middle ids others after) :
      Timeouts config now desk (late.id :: ids) ((late, late.timeoutEvent now) :: others) after
  | passed {desk after : Desk} {ids : List Key} {others : List (Job × Event)} (id : Key)
      (cause : MarketError) (refused : TimeoutRefusal config now id desk cause)
      (rest : Timeouts config now desk ids others after) :
      Timeouts config now desk (id :: ids) others after

end Desk

end ComputeMarket
