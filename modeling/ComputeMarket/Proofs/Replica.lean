import ComputeMarket.Proofs.Store.History

/-
This file defines a replica of the market that sees nothing but events, and proves that it follows
the ledger of one market step by step.
-/

namespace ComputeMarket

/-- What the events tell about a job. -/
structure JobTrace where
  state : JobState
  node : Option Key
  created : Int64
  started : Int64
  ended : Int64
  result : Digest
  deriving DecidableEq

/-- What the events tell about a market. -/
structure MarketTrace where
  price : Amount
  waitingJobs : List Key
  waitingNodes : List Key
  escrow : Amount
  jobs : KeyMap JobTrace
  deriving DecidableEq

namespace JobTrace

/-- A job that was created and waits. -/
def waiting (now : Int64) : JobTrace := ⟨.queued, none, now, 0, 0, .zero⟩

def start (job : JobTrace) (node : Key) (now : Int64) : JobTrace :=
  { job with state := .running, node := some node, started := now }

/-- The trace of a job that is settled. -/
def finish (job : JobTrace) (state : JobState) (now : Int64) : JobTrace :=
  { job with state, ended := now }

end JobTrace

namespace MarketTrace

/-- A market that has just opened. -/
def opened (price : Amount) : MarketTrace := ⟨price, [], [], .zero, .empty⟩

/-- The queue of what waits. -/
def queue (market : MarketTrace) : Queue :=
  match market.waitingJobs with
  | [] => .ofEntries .node market.waitingNodes
  | first :: rest => .ofEntries .job (first :: rest)

/-- A job that has ended no longer waits, and its price leaves the escrow. -/
def settle (market : MarketTrace) (job : Key) (payment : Amount) (finish : JobTrace → JobTrace) :
    Option MarketTrace := do
  guard (payment = market.price)
  let record ← market.jobs.get? job
  let escrow ← market.escrow.sub? payment
  return { market with
    waitingJobs := market.waitingJobs.erase job
    escrow
    jobs := market.jobs.insert job (finish record) }

/-- The market after an event, if the event fits. -/
def step (market : MarketTrace) : Event → Option MarketTrace
  | .marketCreated .. => none
  | .jobQueued _ job _ now => do
    guard (market.jobs.get? job = none)
    let escrow ← market.escrow.add? market.price
    return { market with
      waitingJobs := market.waitingJobs ++ [job]
      escrow
      jobs := market.jobs.insert job (.waiting now) }
  | .nodeQueued _ node _ _ => some { market with waitingNodes := market.waitingNodes ++ [node] }
  | .jobMatched _ job node now =>
    match market.jobs.get? job with
    | some record => do
      guard (market.waitingJobs.head? = some job)
      return { market with
        waitingJobs := market.waitingJobs.tail
        jobs := market.jobs.insert job (record.start node now) }
    | none => do
      guard (market.waitingNodes.head? = some node)
      let escrow ← market.escrow.add? market.price
      return { market with
        waitingNodes := market.waitingNodes.tail
        escrow
        jobs := market.jobs.insert job ((JobTrace.waiting now).start node now) }
  | .nodeDelisted _ node _ => do
    guard (node ∈ market.waitingNodes)
    return { market with waitingNodes := market.waitingNodes.erase node }
  | .jobCompleted _ job _ result payout now =>
    market.settle job payout fun record => { record.finish .completed now with result }
  | .jobStopped _ job _ refund now => market.settle job refund (·.finish .stopped now)
  | .jobTimedOut _ job _ _ refund now => market.settle job refund (·.finish .timedOut now)

end MarketTrace

/-- What the events tell about all markets. -/
abbrev Replica := KeyMap MarketTrace

namespace Replica

/-- The replica after an event, if the event fits. -/
def step (replica : Replica) (event : Event) : Option Replica :=
  match event with
  | .marketCreated market _ price _ => do
    guard (replica.get? market = none)
    return replica.insert market (.opened price)
  | event => do
    let market ← replica.get? event.market
    let next ← market.step event
    return replica.insert event.market next

/-- The replica after a log of events, if all of them fit. -/
def replay (replica : Replica) (log : List Event) : Option Replica := log.foldlM step replica

end Replica

/-- A job as the events tell of it. -/
def Job.trace (job : Job) : JobTrace :=
  ⟨job.state, job.node, job.created, job.started, job.ended, job.result⟩

namespace Venue

/-- A market as the events tell of it. -/
def trace (venue : Venue) : MarketTrace where
  price := venue.market.params.price
  waitingJobs := venue.market.queue.entriesOf .job
  waitingNodes := venue.market.queue.entriesOf .node
  escrow := venue.vault.balance
  jobs := venue.jobs.map Job.trace

/-- Every job was created at the price of the market. -/
def Priced (venue : Venue) : Prop :=
  ∀ id job, venue.jobs.get? id = some job → job.price = venue.market.params.price

variable {venue : Venue}

/-- A record with the price of its market may be filed. -/
theorem Priced.insert (priced : venue.Priced) (key : Key) (job : Job)
    (same : job.price = venue.market.params.price) (id : Key) (other : Job)
    (found : (venue.jobs.insert key job).get? id = some other) :
    other.price = venue.market.params.price :=
  KeyMap.forall_get?_insert priced same id other found

/-- The traces are those of the records. -/
theorem get?_trace (venue : Venue) (id : Key) :
    venue.trace.jobs.get? id = (venue.jobs.get? id).map Job.trace :=
  KeyMap.get?_map Job.trace venue.jobs id

/-- The entries that wait spell the queue. -/
theorem queue_trace (formed : venue.market.queue.isWellFormed = true) :
    venue.trace.queue = venue.market.queue := by
  unfold trace MarketTrace.queue
  cases waits : venue.market.queue with
  | empty => rfl
  | jobs waiting =>
      rw [waits] at formed
      cases waiting with
      | nil => exact absurd formed Bool.false_ne_true
      | cons first rest => rfl
  | nodes waiting =>
      rw [waits] at formed
      exact Queue.ofEntries_entries formed rfl

end Venue

namespace Desk

variable {config : Config} {now : Int64} {desk after : Desk} {event : Event}

/-- Every step leaves each job with the price of its market. -/
theorem Step.priced (priced : desk.venue.Priced) (step : Step config now desk event after) :
    after.venue.Priced := by
  cases step with
  | nodeQueued => exact priced
  | nodeDelisted => exact priced
  | headMatched node waiting queue submitted recorded =>
      exact priced.insert waiting.id
        { waiting with node := some node, state := .running, started := now }
        (priced waiting.id waiting recorded)
  | settled job ended payee event rest total recorded settlement =>
      exact priced.insert job.id ended
        (settlement.same_price.trans (priced job.id job recorded))

/-- The replica of a market settles a job as its ledger does. -/
theorem trace_settle (sound : desk.venue.Sound) (priced : desk.venue.Priced) {job ended : Job}
    {payee : Key} {rest total : Amount} {finish : JobTrace → JobTrace}
    (recorded : desk.venue.jobs.get? job.id = some job)
    (released : rest.base + job.price.base = desk.venue.vault.balance.base)
    (finished : finish job.trace = ended.trace) :
    desk.venue.trace.settle job.id job.price finish =
      some (desk.settle job ended payee rest total).venue.trace := by
  have known : desk.venue.trace.jobs.get? job.id = some job.trace := by
    rw [Venue.get?_trace, recorded]
    rfl
  have escrow : desk.venue.trace.escrow.sub? job.price = some rest := Amount.sub?_eq_some.2 released
  have agreed : job.price = desk.venue.trace.price := priced job.id job recorded
  unfold MarketTrace.settle
  rw [Guard.guard_bind agreed, known]
  change (desk.venue.trace.escrow.sub? job.price >>= _) = _
  rw [escrow, finished]
  change some _ = some _
  have waits : (desk.settle job ended payee rest total).venue.market.queue.entriesOf .job =
      (desk.venue.market.queue.entriesOf .job).erase job.id := waitingJobs_settle sound recorded
  unfold Venue.trace
  rw [waits, waitingNodes_settle]
  change _ = some (MarketTrace.mk _ _ _ _ ((desk.venue.jobs.insert job.id ended).map Job.trace))
  rw [KeyMap.map_insert]
  rfl

/-- The replica of a market follows every step of its ledger. -/
theorem Step.trace (sound : desk.venue.Sound) (priced : desk.venue.Priced)
    (step : Step config now desk event after) :
    desk.venue.trace.step event = some after.venue.trace := by
  cases step with
  | nodeQueued node place queue submitted =>
      obtain ⟨waits, -, before, afterwards⟩ := Queue.entriesOf_of_submit_queued submitted
      change desk.venue.market.queue.entriesOf .job = [] at before
      change queue.entriesOf .job = [] at afterwards
      unfold MarketTrace.step Venue.trace
      dsimp only
      rw [waits, before, afterwards]
  | headMatched node waiting queue submitted recorded queued free =>
      obtain ⟨waits, before, afterwards⟩ := Queue.entriesOf_of_submit_matched submitted
      change desk.venue.market.queue.entriesOf .job = waiting.id :: queue.entriesOf .job at waits
      have known : desk.venue.trace.jobs.get? waiting.id = some waiting.trace := by
        rw [Venue.get?_trace, recorded]
        rfl
      unfold MarketTrace.step
      dsimp only
      rw [known]
      dsimp only
      rw [Guard.guard_bind (by rw [Venue.trace, waits]; rfl)]
      unfold Venue.trace
      dsimp only
      rw [waits, before, afterwards, KeyMap.map_insert]
      rfl
  | nodeDelisted node listed =>
      have waits : node ∈ desk.venue.trace.waitingNodes := Queue.contains_iff.1 listed
      unfold MarketTrace.step
      dsimp only
      rw [Guard.guard_bind waits]
      unfold Venue.trace withQueue
      dsimp only
      rw [Queue.entriesOf_remove, Queue.entriesOf_remove, if_pos rfl, if_neg (by decide)]
      rfl
  | settled job ended payee event rest total recorded settlement released credited =>
      cases settlement with
      | completed node result => exact trace_settle sound priced recorded released rfl
      | stopped => exact trace_settle sound priced recorded released rfl
      | timedOut => exact trace_settle sound priced recorded released rfl

section Entry

variable {client : Key} {request : JobRequest} {capacity : Count} {admission : JobAdmission}

/-- A new job has the price of its market. -/
theorem Entry.priced (priced : desk.venue.Priced)
    (entry : Entry client request capacity now desk admission event after) :
    after.venue.Priced := by
  cases entry with
  | queued => exact priced.insert request.id (desk.draft client request now) rfl
  | matched node =>
      exact priced.insert request.id
        { desk.draft client request now with
          node := some node, state := .running, started := now } rfl

/-- The replica of a market lets in every job that its ledger lets in. -/
theorem Entry.trace (entry : Entry client request capacity now desk admission event after) :
    desk.venue.trace.step event = some after.venue.trace := by
  cases entry with
  | queued place queue rest total admissible submitted =>
      obtain ⟨waits, -, before, afterwards⟩ := Queue.entriesOf_of_submit_queued submitted
      change desk.venue.market.queue.entriesOf .node = [] at before
      change queue.entriesOf .node = [] at afterwards
      have unseen : desk.venue.trace.jobs.get? request.id = none := by
        rw [Venue.get?_trace, admissible.fresh]
        rfl
      have escrow : desk.venue.trace.escrow.add? desk.venue.trace.price = some total :=
        Amount.add?_eq_some.2 admissible.escrowed
      unfold MarketTrace.step
      dsimp only
      rw [Guard.guard_bind unseen, escrow]
      unfold Venue.trace enter
      dsimp only
      rw [waits, before, afterwards, KeyMap.map_insert]
      rfl
  | matched node queue rest total admissible submitted =>
      obtain ⟨waits, before, afterwards⟩ := Queue.entriesOf_of_submit_matched submitted
      change desk.venue.market.queue.entriesOf .node = node :: queue.entriesOf .node at waits
      have unseen : desk.venue.trace.jobs.get? request.id = none := by
        rw [Venue.get?_trace, admissible.fresh]
        rfl
      have escrow : desk.venue.trace.escrow.add? desk.venue.trace.price = some total :=
        Amount.add?_eq_some.2 admissible.escrowed
      unfold MarketTrace.step
      dsimp only
      rw [unseen]
      dsimp only
      rw [Guard.guard_bind (by rw [Venue.trace, waits]; rfl), escrow]
      unfold Venue.trace enter
      dsimp only
      rw [waits, before, afterwards, KeyMap.map_insert]
      rfl

end Entry

end Desk

end ComputeMarket
