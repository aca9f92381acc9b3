import ComputeMarket.Proofs.Outcome

/-
This file proves that every step on the ledger of a market keeps its parts in agreement.
-/

namespace ComputeMarket

namespace Venue

variable {venue next : Venue}

/-- A change of the queue that moves no job keeps a ledger sound. -/
theorem Sound.withQueue (sound : venue.Sound) (queue : Queue) (jobCount listingCount : Count)
    (formed : queue.isWellFormed = true)
    (same : queue.entriesOf .job = venue.market.queue.entriesOf .job) :
    Sound { venue with market := { venue.market with queue, jobCount, listingCount } } where
  named := sound.named
  vaultNamed := sound.vaultNamed
  formed := formed
  waiting id := by
    have before := sound.waiting id
    rw [waitingJobs, ← same] at before
    exact before
  filed := sound.filed
  bound := sound.bound
  escrowed := sound.escrowed

/-- A record filed in place of another, or in a free place, keeps a ledger sound if the queue
and the vault follow it. -/
theorem Sound.file (sound : venue.Sound) (job : Job)
    (sameId : next.market.id = venue.market.id) (sameVault : next.market.vault = venue.market.vault)
    (sameAddress : next.vault.address = venue.vault.address)
    (jobs : next.jobs = venue.jobs.insert job.id job)
    (owned : job.market = venue.market.id) (agrees : nodeAgrees job = true)
    (formed : next.market.queue.isWellFormed = true)
    (waiting : ∀ id, id ∈ next.waitingJobs ↔
      if id = job.id then job.state = .queued else id ∈ venue.waitingJobs)
    (escrowed : next.vault.balance.base + (venue.jobs.get? job.id).elim 0 Job.held =
      venue.vault.balance.base + job.held) :
    next.Sound where
  named := by rw [sameVault, sameId]; exact sound.named
  vaultNamed := by rw [sameAddress, sameVault]; exact sound.vaultNamed
  formed := formed
  waiting id := by
    rw [waiting id, jobs, KeyMap.get?_insert]
    by_cases same : id = job.id
    · subst same
      simp
    · rw [if_neg same, if_neg (Ne.symm same)]
      exact sound.waiting id
  filed id found := by
    rw [jobs, KeyMap.get?_insert, sameId]
    split
    · rename_i same
      rintro ⟨⟩
      exact ⟨same, owned⟩
    · exact sound.filed id found
  bound id found := by
    rw [jobs, KeyMap.get?_insert]
    split
    · rintro ⟨⟩
      exact agrees
    · exact sound.bound id found
  escrowed := by
    have placed := KeyMap.total_insert Job.held venue.jobs job.id job
    rw [sound.escrowed] at placed
    rw [jobs]
    omega

end Venue

namespace Desk

variable {config : Config} {now : Int64} {desk after : Desk} {event : Event}

/-- The terms of a market never change. -/
theorem Step.same_terms (step : Step config now desk event after) :
    after.venue.market.id = desk.venue.market.id ∧
      after.venue.market.authority = desk.venue.market.authority ∧
      after.venue.market.vault = desk.venue.market.vault ∧
      after.venue.market.params = desk.venue.market.params := by
  cases step <;> exact ⟨rfl, rfl, rfl, rfl⟩

/-- Every event names the market that it comes from. -/
theorem Step.event_market (sound : desk.venue.Sound) (step : Step config now desk event after) :
    event.market = desk.venue.market.id := by
  cases step with
  | nodeQueued => rfl
  | headMatched => rfl
  | nodeDelisted => rfl
  | settled job ended payee event rest total recorded settlement =>
      have named := (sound.filed job.id job recorded).2
      cases settlement <;> exact named

/-- No step without a new job adds a record or loses one. -/
theorem Step.contains_iff (step : Step config now desk event after) (id : Key) :
    after.venue.jobs.contains id = true ↔ desk.venue.jobs.contains id = true := by
  cases step with
  | nodeQueued => rfl
  | nodeDelisted => rfl
  | headMatched node waiting queue submitted recorded =>
      change (KeyMap.insert _ _ _).contains id = true ↔ _
      rw [KeyMap.contains_insert, or_iff_right_of_imp]
      rintro rfl
      exact KeyMap.contains_iff_exists.2 ⟨waiting, recorded⟩
  | settled job ended payee event rest total recorded =>
      change (KeyMap.insert _ _ _).contains id = true ↔ _
      rw [KeyMap.contains_insert, or_iff_right_of_imp]
      rintro rfl
      exact KeyMap.contains_iff_exists.2 ⟨job, recorded⟩

section Entry

variable {client : Key} {request : JobRequest} {capacity : Count} {admission : JobAdmission}

/-- A new job does not change the terms of its market. -/
theorem Entry.same_terms
    (entry : Entry client request capacity now desk admission event after) :
    after.venue.market.id = desk.venue.market.id ∧
      after.venue.market.authority = desk.venue.market.authority ∧
      after.venue.market.vault = desk.venue.market.vault ∧
      after.venue.market.params = desk.venue.market.params := by
  cases entry <;> exact ⟨rfl, rfl, rfl, rfl⟩

/-- The event of a new job names its market. -/
theorem Entry.event_market
    (entry : Entry client request capacity now desk admission event after) :
    event.market = desk.venue.market.id := by
  cases entry <;> rfl

/-- A new job adds one record and no other. -/
theorem Entry.contains_iff
    (entry : Entry client request capacity now desk admission event after) (id : Key) :
    after.venue.jobs.contains id = true ↔
      id = request.id ∨ desk.venue.jobs.contains id = true := by
  cases entry <;> exact KeyMap.contains_insert ..

/-- A new job keeps the ledger sound. -/
theorem Entry.sound (sound : desk.venue.Sound)
    (entry : Entry client request capacity now desk admission event after) :
    after.venue.Sound := by
  cases entry with
  | queued place queue rest total admissible submitted =>
      obtain ⟨waits, -, -, -⟩ := Queue.entriesOf_of_submit_queued submitted
      refine sound.file (desk.draft client request now) rfl rfl rfl rfl rfl rfl
        (Queue.isWellFormed_of_submit sound.formed submitted) ?_ ?_
      · intro id
        change id ∈ queue.entriesOf .job ↔ if id = request.id then _ else _
        rw [waits, List.mem_append, List.mem_singleton]
        by_cases same : id = request.id
        · rw [if_pos same]
          exact ⟨fun _ => rfl, fun _ => .inr same⟩
        · rw [if_neg same, or_iff_left same]
          rfl
      · change _ + (desk.venue.jobs.get? request.id).elim 0 Job.held = _
        rw [admissible.fresh]
        exact admissible.escrowed
  | matched node queue rest total admissible submitted =>
      obtain ⟨-, before, afterwards⟩ := Queue.entriesOf_of_submit_matched submitted
      refine sound.file { desk.draft client request now with
          node := some node, state := .running, started := now } rfl rfl rfl rfl rfl rfl
        (Queue.isWellFormed_of_submit sound.formed submitted) ?_ ?_
      · intro id
        change id ∈ queue.entriesOf .job ↔ if id = request.id then _ else
          id ∈ desk.venue.market.queue.entriesOf .job
        rw [afterwards, before]
        simp
      · change _ + (desk.venue.jobs.get? request.id).elim 0 Job.held = _
        rw [admissible.fresh]
        exact admissible.escrowed

end Entry

/-- A settlement takes the job out of the waiting jobs if it was there. -/
theorem waitingJobs_settle (sound : desk.venue.Sound) {job ended : Job} {payee : Key}
    {rest total : Amount} (recorded : desk.venue.jobs.get? job.id = some job) :
    (desk.settle job ended payee rest total).venue.waitingJobs =
      desk.venue.waitingJobs.erase job.id := by
  change Queue.entriesOf (if job.state = .queued then _ else _) .job = _
  by_cases queued : job.state = .queued
  · rw [if_pos queued, Queue.entriesOf_remove, if_pos rfl]
    rfl
  · rw [if_neg queued, List.erase_of_not_mem]
    · rfl
    · intro member
      obtain ⟨known, found, waits⟩ := (sound.waiting job.id).1 member
      rw [recorded, Option.some.injEq] at found
      exact queued (found ▸ waits)

/-- A settlement leaves the waiting nodes alone. -/
theorem waitingNodes_settle {job ended : Job} {payee : Key} {rest total : Amount} :
    (desk.settle job ended payee rest total).venue.market.queue.entriesOf .node =
      desk.venue.market.queue.entriesOf .node := by
  change Queue.entriesOf (if job.state = .queued then _ else _) .node = _
  split
  · rw [Queue.entriesOf_remove, if_neg (by decide)]
  · rfl

/-- A job that takes a node leaves the head of the queue, and its price stays in the vault. -/
theorem sound_headMatched (sound : desk.venue.Sound) {node : Key} {waiting : Job} {queue : Queue}
    {capacity listings : Count}
    (submitted : desk.venue.market.queue.submit .node node capacity =
      .ok (.matched waiting.id, queue))
    (recorded : desk.venue.jobs.get? waiting.id = some waiting)
    (queued : waiting.state = .queued) :
    Venue.Sound { desk.venue with
      market := { desk.venue.market with queue, listingCount := listings }
      jobs := desk.venue.jobs.insert waiting.id
        { waiting with node := some node, state := .running, started := now } } := by
  obtain ⟨waits, -, -⟩ := Queue.entriesOf_of_submit_matched submitted
  have distinct := Queue.nodup_entriesOf sound.formed .job
  change desk.venue.market.queue.entriesOf .job = waiting.id :: queue.entriesOf .job at waits
  rw [waits, List.nodup_cons] at distinct
  refine sound.file { waiting with
      node := some node, state := .running, started := now } rfl rfl rfl rfl
    (sound.filed waiting.id waiting recorded).2 rfl
    (Queue.isWellFormed_of_submit sound.formed submitted) ?_ ?_
  · intro id
    change id ∈ queue.entriesOf .job ↔ if id = waiting.id then _ else
      id ∈ desk.venue.market.queue.entriesOf .job
    rw [waits, List.mem_cons]
    by_cases same : id = waiting.id
    · subst same
      simpa using distinct.1
    · rw [if_neg same, or_iff_right same]
  · change _ + (desk.venue.jobs.get? waiting.id).elim 0 Job.held = _
    rw [recorded, Option.elim_some, Job.held, Job.isOpen, queued]
    rfl

/-- The record that a settlement leaves has a node exactly if its state asks for one. -/
theorem nodeAgrees_ended (sound : desk.venue.Sound) {job ended : Job} {payee : Key}
    (recorded : desk.venue.jobs.get? job.id = some job)
    (settlement : job.Settlement config now ended payee event) :
    Venue.nodeAgrees ended = true := by
  cases settlement with
  | completed node result running bound =>
      change job.node.isSome = true
      rw [bound]
      rfl
  | stopped queued =>
      change job.node.isNone = true
      rw [node_eq_none sound recorded queued]
      rfl
  | timedOut => rfl

/-- A settled job waits no longer, and the vault has paid its price. -/
theorem sound_settle (sound : desk.venue.Sound) {job ended : Job} {payee : Key}
    {rest total : Amount} (recorded : desk.venue.jobs.get? job.id = some job)
    (settlement : job.Settlement config now ended payee event)
    (released : rest.base + job.price.base = desk.venue.vault.balance.base) :
    (desk.settle job ended payee rest total).venue.Sound := by
  obtain ⟨sameId, sameMarket⟩ := settlement.same_names
  have formed :
      (desk.settle job ended payee rest total).venue.market.queue.isWellFormed = true := by
    change Queue.isWellFormed (if job.state = .queued then _ else _) = true
    split
    · exact Queue.isWellFormed_remove sound.formed .job job.id
    · exact sound.formed
  refine sound.file ended rfl rfl rfl (by rw [sameId]; rfl)
    (sameMarket.trans (sound.filed job.id job recorded).2)
    (nodeAgrees_ended sound recorded settlement) formed ?_ ?_
  · intro id
    have distinct : desk.venue.waitingJobs.Nodup := Queue.nodup_entriesOf sound.formed .job
    rw [waitingJobs_settle sound recorded, sameId, distinct.mem_erase_iff]
    by_cases same : id = job.id
    · rw [if_pos same]
      exact ⟨fun waits => absurd same waits.1,
        fun queued => absurd queued settlement.state_ne_queued⟩
    · rw [if_neg same]
      exact and_iff_right same
  · change rest.base + (desk.venue.jobs.get? ended.id).elim 0 Job.held =
      desk.venue.vault.balance.base + ended.held
    rw [sameId, recorded, Option.elim_some, Job.held, if_pos settlement.isOpen, Job.held,
      settlement.not_isOpen, ← released]
    rfl

/-- Every other step keeps the ledger sound. -/
theorem Step.sound (sound : desk.venue.Sound) (step : Step config now desk event after) :
    after.venue.Sound := by
  cases step with
  | nodeQueued node place queue submitted =>
      obtain ⟨-, -, before, afterwards⟩ := Queue.entriesOf_of_submit_queued submitted
      exact sound.withQueue queue _ _ (Queue.isWellFormed_of_submit sound.formed submitted)
        (afterwards.trans before.symm)
  | headMatched node waiting queue submitted recorded queued free =>
      exact sound_headMatched sound submitted recorded queued
  | nodeDelisted node listed =>
      refine sound.withQueue _ _ _ (Queue.isWellFormed_remove sound.formed .node node) ?_
      rw [Queue.entriesOf_remove, if_neg (by decide)]
  | settled job ended payee event rest total recorded settlement released credited =>
      exact sound_settle sound recorded settlement released

end Desk

end ComputeMarket
