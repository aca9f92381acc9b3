import ComputeMarket.BalanceBook
import ComputeMarket.Event
import ComputeMarket.Venue

/-
This file defines the transitions of one market. A transition sees the ledger of its market
and the balances, nothing else, and keeps what it has changed when it fails.
-/

namespace ComputeMarket

/-- What a transition of one market may read and change. -/
structure Desk where
  venue : Venue
  balances : BalanceBook
  deriving DecidableEq

/-- An action on the ledger of one market and the balances. -/
abbrev Transition (α : Type) := EStateM MarketError Desk α

/-- Goes on with a value, or fails for the same cause. -/
def accept {σ α : Type} : Except MarketError α → EStateM MarketError σ α
  | .ok value => pure value
  | .error cause => throw cause

namespace Desk

/-- Puts another queue in place. -/
def setQueue (queue : Queue) : Transition Unit :=
  modify fun desk =>
    { desk with venue := { desk.venue with market := { desk.venue.market with queue } } }

def record (job : Job) : Transition Unit :=
  modify fun desk =>
    { desk with venue := { desk.venue with jobs := desk.venue.jobs.insert job.id job } }

/-- Counts one more job. -/
def countJob : Transition Unit :=
  modify fun desk =>
    let market := desk.venue.market
    { desk with venue :=
        { desk.venue with market := { market with jobCount := market.jobCount.next } } }

/-- Counts one more listing. -/
def countListing : Transition Unit :=
  modify fun desk =>
    let market := desk.venue.market
    { desk with venue :=
        { desk.venue with market := { market with listingCount := market.listingCount.next } } }

def credit (account : Key) (amount : Amount) : Transition Unit := do
  let (_, balances) ← accept ((← get).balances.credit account amount)
  modify fun desk => { desk with balances }

def debit (account : Key) (amount : Amount) : Transition Unit := do
  let (_, balances) ← accept ((← get).balances.debit account amount)
  modify fun desk => { desk with balances }

def deposit (amount : Amount) : Transition Unit := do
  let vault ← accept ((← get).venue.vault.deposit amount)
  modify fun desk => { desk with venue := { desk.venue with vault } }

def withdraw (amount : Amount) : Transition Unit := do
  let vault ← accept ((← get).venue.vault.withdraw amount)
  modify fun desk => { desk with venue := { desk.venue with vault } }

def job (id : Key) : Transition Job := do
  match (← get).venue.jobs.get? id with
  | some job => pure job
  | none => throw (.jobNotFound id)

/-- Hands an arrival to the queue. -/
def submit (side : Side) (id : Key) (capacity : Count) : Transition Admission := do
  let (admission, queue) ← accept ((← get).venue.market.queue.submit side id capacity)
  setQueue queue
  return admission

/-- Takes the price from the client into escrow and submits the job. -/
def createJob (client : Key) (request : JobRequest) (capacity : Count) (now : Int64) :
    Transition (JobAdmission × Event) := do
  let desk ← get
  let market := desk.venue.market
  if request.definition.isZero then
    throw (.invalidInput .zeroDefinition)
  if desk.venue.jobs.contains request.id then
    throw (.duplicate .job request.id)
  let price := market.params.price
  accept (desk.balances.allowDebit client price)
  let _ ← accept (desk.venue.vault.afterDeposit price)
  let admission ← submit .job request.id capacity
  debit client price
  deposit price
  let job := Job.ofRequest request market.id client price market.params.timeout now
  match admission with
  | .matched node =>
    let started ← accept (job.start node now)
    record started
    countJob
    return (.matched node, .jobMatched market.id job.id node now)
  | .queued place =>
    let position := Count.ofNat place
    record job
    countJob
    return (.queued position, .jobQueued market.id job.id position now)

/-- Checks that the job at the head of the queue, if jobs wait, could take a node. -/
def checkHead : Transition Unit := do
  let venue := (← get).venue
  match venue.market.queue with
  | .jobs [] => throw (.violation .emptyJobQueue)
  | .jobs (head :: _) =>
    match venue.jobs.get? head with
    | none => throw (.violation (.queuedJobUnrecorded head))
    | some job =>
      accept (job.allow .running)
      if job.node.isSome then
        throw (.violation (.queuedJobHasNode head))
  | .empty | .nodes _ => pure ()

/-- Submits an idle node. -/
def listNode (node : Key) (stake : Stake) (capacity : Count) (now : Int64) :
    Transition (NodeAdmission × Event) := do
  let market := (← get).venue.market
  let required := market.params.minimumStake
  if stake.units < required.units then
    throw (.insufficientStake required stake)
  checkHead
  match ← submit .node node capacity with
  | .matched head =>
    let waiting ← job head
    let started ← accept (waiting.start node now)
    record started
    countListing
    return (.matched head, .jobMatched market.id head node now)
  | .queued place =>
    let position := Count.ofNat place
    countListing
    return (.queued position, .nodeQueued market.id node position now)

/-- Takes an idle node out of the queue. -/
def delistNode (node : Key) (now : Int64) : Transition Event := do
  let market := (← get).venue.market
  let (waited, queue) := market.queue.extract .node node
  setQueue queue
  unless waited do
    throw (.nodeNotQueued node)
  return .nodeDelisted market.id node now

/-- Completes a running job and pays its node. -/
def finishJob (id node : Key) (result : Digest) (config : Config) (now : Int64) :
    Transition (Job × Event) := do
  let running ← job id
  unless running.node = some node do
    throw (.unauthorized node .boundNode id)
  accept (running.allow .completed)
  if result.isZero then
    throw (.invalidInput .zeroResult)
  if config.enforceDeadline && running.isExpired now config.expiry then
    throw (.expired id ((running.deadline config.expiry).getD now))
  let price := running.price
  accept ((← get).balances.allowCredit node price)
  withdraw price
  let finished ← accept (running.complete result now)
  record finished
  credit node price
  return (finished, .jobCompleted finished.market id node result price now)

/-- Withdraws a queued job and refunds its client. -/
def cancelJob (id client : Key) (now : Int64) : Transition (Job × Event) := do
  let waiting ← job id
  unless waiting.client = client do
    throw (.unauthorized client .client id)
  accept (waiting.allow .stopped)
  let queue := (← get).venue.market.queue
  unless queue.contains .job id do
    throw (.violation (.jobMissingFromQueue id))
  let price := waiting.price
  accept ((← get).balances.allowCredit client price)
  withdraw price
  setQueue (queue.remove .job id)
  let stopped ← accept (waiting.stop now)
  record stopped
  credit client price
  return (stopped, .jobStopped stopped.market id client price now)

/-- Ends a job past its deadline and refunds its client. -/
def timeoutJob (id : Key) (expiry : Expiry) (now : Int64) : Transition (Job × Event) := do
  let late ← job id
  accept (late.allow .timedOut)
  let some deadline := late.deadline expiry
    | throw (.invalidTransition id late.state .timedOut)
  if now ≤ deadline then
    throw (.notTimedOut id deadline now)
  let wasQueued := late.state = .queued
  let queue := (← get).venue.market.queue
  if wasQueued ∧ ¬ queue.contains .job id then
    throw (.violation (.jobMissingFromQueue id))
  let client := late.client
  let price := late.price
  accept ((← get).balances.allowCredit client price)
  withdraw price
  if wasQueued then
    setQueue (queue.remove .job id)
  let ended ← accept (late.timeOut now)
  record ended
  credit client price
  return (ended, .jobTimedOut ended.market id client ended.node price now)

/-- Ends the given jobs one after the other, passing over those that cannot be ended. -/
def timeoutJobs (expiry : Expiry) (now : Int64) : List Key → Transition (List (Job × Event))
  | [] => pure []
  | id :: rest => do
    let first ← try some <$> timeoutJob id expiry now catch _ => pure none
    let others ← timeoutJobs expiry now rest
    return first.toList ++ others

/-- Ends every job past its deadline, oldest first. -/
def sweep (expiry : Expiry) (now : Int64) : Transition (List (Job × Event)) := do
  timeoutJobs expiry now ((← get).venue.overdueJobs now expiry)

end Desk

end ComputeMarket
