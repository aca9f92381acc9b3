import ComputeMarket.Job
import ComputeMarket.KeyMap
import ComputeMarket.Market

/-
This file defines the ledger of one market and the audit of its parts.
-/

namespace ComputeMarket

/-- A market with its vault and every job created in it. -/
structure Venue where
  market : Market
  vault : Vault
  jobs : KeyMap Job
  deriving DecidableEq

namespace Venue

def new (id authority : Key) (params : MarketParams) : Venue where
  market := Market.new id authority params
  vault := Vault.ofMarket id .zero
  jobs := .empty

/-- The records in the order of age. -/
def jobsByAge (venue : Venue) : List Job := Job.sortByAge venue.jobs.values

/-- The open jobs past their deadline, oldest first. -/
def overdueJobs (venue : Venue) (now : Int64) (expiry : Expiry) : List Key :=
  (Job.sortByAge (venue.jobs.values.filter fun job => job.isOpen && job.isExpired now expiry)).map
    Job.id

/-- The sum of the prices of the open jobs, if it is an amount. -/
def escrowed? (venue : Venue) : Option Amount :=
  (venue.jobs.values.filter Job.isOpen).foldlM (fun total job => total.add? job.price) Amount.zero

/-- The jobs that wait in the queue. -/
def waitingJobs (venue : Venue) : List Key := venue.market.queue.entriesOf .job

/-- Whether a job may have the node that it has. A job can time out with and without one. -/
def nodeAgrees (job : Job) : Bool :=
  match job.state with
  | .queued | .stopped => job.node.isNone
  | .running | .completed => job.node.isSome
  | .timedOut => true

/-- A job that waits has a record, which says that it is queued. -/
def auditWaiting (venue : Venue) (id : Key) : Except MarketError Unit :=
  match venue.jobs.get? id with
  | none => .error (.violation (.queuedJobUnrecorded id))
  | some job =>
    if job.state = .queued then .ok ()
    else .error (.violation (.queuedJobInState id job.state))

/-- A job belongs to the market and has a node exactly when its state says so. -/
def auditJob (venue : Venue) (job : Job) : Except MarketError Unit :=
  if job.market ≠ venue.market.id then
    .error (.violation (.foreignJob job.id job.market))
  else if nodeAgrees job then .ok ()
  else .error (.violation (.inconsistentNode job.id job.state job.node))

/-- Checks that the parts of the ledger agree, and names the first disagreement. -/
def audit (venue : Venue) : Except MarketError Unit := do
  let id := venue.market.id
  if venue.market.vault ≠ Vault.addressOf id ∨ venue.vault.address ≠ venue.market.vault then
    throw (.violation (.vaultMismatch id))
  unless venue.market.queue.isWellFormed do
    throw (.violation (.malformedQueue id))
  venue.waitingJobs.forM venue.auditWaiting
  let recorded := venue.jobs.values.countP (·.state = .queued)
  let waiting := venue.waitingJobs.length
  unless recorded = waiting do
    throw (.violation (.queueCountMismatch id recorded waiting))
  venue.jobs.values.forM venue.auditJob
  let some owed := venue.escrowed? | throw (.violation (.escrowOverflow id))
  unless owed = venue.vault.balance do
    throw (.violation (.escrowMismatch id venue.vault.balance owed))

end Venue

end ComputeMarket
