import ComputeMarket.Proofs.Offer

/-
This file proves that a withdrawal undoes the submission right before it: a job that waits and is
cancelled or timed out, or a node that waits and is delisted, leaves all money and all queues as
they were.
-/

namespace ComputeMarket

namespace Operation.Does

variable {now : Int64} {id market client node : Key} {reply : Reply} {changes : List Change}

/-- A cancellation tells that its job was stopped. -/
theorem of_cancelJob (does : (Operation.cancelJob id client).Does now reply changes) :
    ∃ place price, changes = [.told (.jobStopped place id client price now)] := by
  cases does
  exact ⟨_, _, rfl⟩

/-- A timeout tells that its job ran out of time. -/
theorem of_timeoutJob (does : (Operation.timeoutJob id).Does now reply changes) :
    ∃ place owner node price, changes = [.told (.jobTimedOut place id owner node price now)] := by
  cases does
  exact ⟨_, _, _, _, rfl⟩

/-- A withdrawal tells that its node was delisted. -/
theorem of_delistNode (does : (Operation.delistNode market node).Does now reply changes) :
    changes = [.told (.nodeDelisted market node now)] := by
  cases does
  rfl

end Operation.Does

/-- A job that waits has no node whose reputation its settlement could touch. -/
theorem Job.Settlement.rateEvent_of_queued {config : Config} {now : Int64} {job ended : Job}
    {payee : Key} {event : Event} (settlement : job.Settlement config now ended payee event)
    (queued : job.state = .queued) (alone : job.node = none) (jobs : KeyMap Job)
    (reputations : KeyMap Reputation) :
    config.rateEvent now jobs event reputations = reputations := by
  cases settlement with
  | completed _ _ running =>
      rw [queued] at running
      cases running
  | stopped => rfl
  | timedOut => rw [Config.rateEvent, alone, Config.rateTimeout]

namespace Venue

/-- The ledger with a job that came and went: its record, and one more job counted. -/
def withFormerJob (venue : Venue) (job : Job) : Venue :=
  { venue with
    market := { venue.market with jobCount := venue.market.jobCount.next }
    jobs := venue.jobs.insert job.id job }

/-- The ledger with the queue that a node has joined. -/
def withNode (venue : Venue) (queue : Queue) : Venue :=
  { venue with
    market := { venue.market with queue, listingCount := venue.market.listingCount.next } }

/-- The ledger with a node that came and went: one more listing counted. -/
def withFormerNode (venue : Venue) : Venue :=
  { venue with
    market := { venue.market with listingCount := venue.market.listingCount.next } }

end Venue

namespace Desk

variable {config : Config} {now : Int64} {desk : Desk} {client node : Key} {request : JobRequest}
  {capacity : Count} {place : Nat} {queue : Queue} {rest total back refunded : Amount}

/-- The refund of a job that came last into the queue restores the queue, the vault and the
balances. -/
theorem settle_enter (formed : desk.venue.market.queue.isWellFormed = true)
    (charged : desk.venue.market.params.price ≠ .zero)
    (admissible : desk.Admissible client request rest total)
    (submitted : desk.venue.market.queue.submit .job request.id capacity =
      .ok (.queued place, queue)) {ended : Job} (same : ended.id = request.id)
    (released : back.base + desk.venue.market.params.price.base = total.base)
    (credited : refunded.base = rest.base + desk.venue.market.params.price.base) :
    (desk.enter client (desk.draft client request now) queue rest total).settle
        (desk.draft client request now) ended client back refunded =
      ⟨desk.venue.withFormerJob ended, desk.balances⟩ := by
  have paid := admissible.paid
  have escrowed := admissible.escrowed
  have sameVault : back = desk.venue.vault.balance := Amount.ext (by omega)
  have sameBalance : refunded = desk.balances.balance client := Amount.ext (by omega)
  have removed : queue.remove .job request.id = desk.venue.market.queue :=
    Queue.remove_of_submit_queued formed submitted
  have funded : desk.balances.balance client ≠ .zero := by
    intro poor
    rw [poor, Amount.base_zero] at paid
    exact charged (Amount.ext (by rw [Amount.base_zero]; omega))
  have onBooks := BalanceBook.get?_of_balance_ne_zero funded
  subst sameVault sameBalance
  unfold settle enter Venue.withFormerJob
  simp only [draft, Job.ofRequest, if_true, removed, KeyMap.insert_insert,
    KeyMap.insert_same onBooks, same]

/-- A node that came last into the queue and is taken out restores the queue. -/
theorem withQueue_remove {venue : Venue} (formed : venue.market.queue.isWellFormed = true)
    (submitted : venue.market.queue.submit .node node capacity = .ok (.queued place, queue))
    (balances : BalanceBook) :
    withQueue ⟨venue.withNode queue, balances⟩ (queue.remove .node node) =
      ⟨venue.withFormerNode, balances⟩ := by
  rw [Queue.remove_of_submit_queued formed submitted]
  rfl

end Desk

namespace Store

/-- The terms of every market are such that a market can open with them. -/
def Licensed (store : Store) : Prop :=
  ∀ market venue, store.venues.get? market = some venue → venue.market.params.validate = .ok ()

/-- The store with a job that came and went: its record and its index entry, one more job counted,
and the events. -/
def withFormerJob (store : Store) (market : Key) (venue : Venue) (job : Job) (told : List Event) :
    Store :=
  { store with
    venues := store.venues.insert market (venue.withFormerJob job)
    jobMarkets := store.jobMarkets.insert job.id market
    events := store.events ++ told }

/-- The store with a node that came and went: one more listing counted, and the events. -/
def withFormerNode (store : Store) (market : Key) (venue : Venue) (told : List Event) : Store :=
  { store with
    venues := store.venues.insert market venue.withFormerNode
    events := store.events ++ told }

/-- Every balance, every vault and every queue is as it was before. -/
structure Undone (before after : Store) : Prop where
  balances : after.balances = before.balances
  vaults : ∀ market,
    (after.venues.get? market).map Venue.vault = (before.venues.get? market).map Venue.vault
  queues : ∀ market,
    (after.venues.get? market).map (fun venue => venue.market.queue) =
      (before.venues.get? market).map fun venue => venue.market.queue

variable {store after : Store} {now later : Int64} {market client node : Key} {venue : Venue}
  {request : JobRequest} {position : Count} {stake : Stake} {seen : Change} {told : List Event}

theorem Licensed.insert (licensed : store.Licensed) (valid : venue.market.params.validate = .ok ())
    (venues : after.venues = store.venues.insert market venue) : after.Licensed := by
  unfold Store.Licensed
  rw [venues]
  exact KeyMap.forall_get?_insert licensed valid

/-- Every change of a store keeps the terms of all markets valid. -/
theorem Step.licensed (licensed : store.Licensed) (step : Step now store seen after) :
    after.Licensed := by
  cases step with
  | opened id authority params fresh valid => exact licensed.insert valid rfl
  | entered market client request venue admission event desk found unused entry =>
      refine licensed.insert ?_ rfl
      rw [entry.same_terms.2.2.2]
      exact licensed market venue found
  | traded market venue event desk found step =>
      refine licensed.insert ?_ rfl
      rw [step.same_terms.2.2.2]
      exact licensed market venue found
  | paid => exact licensed

/-- All that changes in the store when a node leaves a queue. -/
theorem Step.delist_eq (sound : store.Sound)
    (step : Step now store (.told (.nodeDelisted market node now)) after)
    (found : store.venues.get? market = some venue) :
    after = { store.file market (Desk.withQueue ⟨venue, store.balances⟩
        (venue.market.queue.remove .node node)) with
      events := store.events ++ [.nodeDelisted market node now] } := by
  generalize told : Event.nodeDelisted market node now = event at step
  cases step with
  | opened => cases told
  | traded place known event desk foundPlace step =>
      obtain rfl := sound.named place known foundPlace
      cases step with
      | nodeQueued => cases told
      | headMatched => cases told
      | settled job ended payee event rest total recorded settlement => cases settlement <;> cases told
      | nodeDelisted gone listed =>
          cases told
          rw [found, Option.some.injEq] at foundPlace
          subst foundPlace
          rfl

/-- In a store that starts empty, every market has opened with terms that are valid. -/
theorem licensed_after {config : Config} {start : Store} (opened : new config = .ok start)
    (moves : List Move) : (start.after moves).Licensed := by
  apply (sound_of_new opened).invariant_after Licensed
  · obtain ⟨-, same⟩ := Guard.unit_bind_eq_ok.1 opened
    cases same
    intro market venue found
    cases found
  · intro store licensed
    exact licensed
  · intro now store after seen sound licensed step
    exact step.licensed licensed

/-- A ledger put back with the vault and the queue that it had leaves all money and all queues as
they were. -/
theorem undone_of_insert {next : Venue} (found : store.venues.get? market = some venue)
    (venues : after.venues = store.venues.insert market next) (vault : next.vault = venue.vault)
    (queue : next.market.queue = venue.market.queue)
    (balances : after.balances = store.balances) : store.Undone after where
  balances := balances
  vaults other := by
    rw [venues, KeyMap.map_get?_insert found vault]
  queues other := by
    rw [venues, KeyMap.map_get?_insert found queue]

/-- A call succeeds and leaves the given store, in which all money and all queues are as they were
before. -/
structure Undoes (before submitted : Store) (now : Int64) (call : Operation) (result : Store) : Prop
    where
  accepted : submitted.Accepts now call
  leaves : (submitted.apply now call).2 = result
  undone : before.Undone result

/-- A job that has come to wait can be taken back: by its client at any time, and past its deadline
by anybody where waiting jobs time out. -/
structure TakesBackJob (store : Store) (now : Int64) (market client : Key) (request : JobRequest)
    (position : Count) (venue : Venue) (waiting : Job) : Prop where
  found : store.venues.get? market = some venue
  record : waiting = Job.ofRequest request market client venue.market.params.price
    venue.market.params.timeout now
  cancelled : ∀ later,
    store.Undoes (store.apply now (.createJob market client request)).2 later
      (.cancelJob request.id client)
      (store.withFormerJob market venue { waiting with state := .stopped, ended := later }
        [.jobQueued market request.id position now,
          .jobStopped market request.id client waiting.price later])
  timedOut : store.config.expiry = .queuedAndRunning → ∀ later,
    Time.after now venue.market.params.timeout < later →
      store.Undoes (store.apply now (.createJob market client request)).2 later
        (.timeoutJob request.id)
        (store.withFormerJob market venue { waiting with state := .timedOut, ended := later }
          [.jobQueued market request.id position now,
            .jobTimedOut market request.id client none waiting.price later])

/-- A node that has come to wait can be taken out at any time, and no record of a job changes. -/
structure TakesBackNode (store : Store) (now : Int64) (market node : Key) (stake : Stake)
    (position : Count) (venue : Venue) : Prop where
  found : store.venues.get? market = some venue
  delisted : ∀ later,
    store.Undoes (store.apply now (.listNode market node stake)).2 later (.delistNode market node)
      (store.withFormerNode market venue
        [.nodeQueued market node position now, .nodeDelisted market node later])
  jobs : ∀ later place id,
    ((store.apply now (.listNode market node stake)).2.apply later
      (.delistNode market node)).2.record? place id = store.record? place id

/-- What a job that has come to wait leaves behind. -/
theorem Sound.queued_of_apply (sound : store.Sound)
    (answer : (store.apply now (.createJob market client request)).1 =
      .ok (.jobAdmitted (.queued position))) :
    ∃ venue place queue rest total, store.venues.get? market = some venue ∧
      Desk.Admissible ⟨venue, store.balances⟩ client request rest total ∧
      venue.market.queue.submit .job request.id store.config.capacity =
        .ok (.queued place, queue) ∧
      (store.apply now (.createJob market client request)).2 =
        { store.file market (Desk.enter ⟨venue, store.balances⟩ client
            (Desk.draft ⟨venue, store.balances⟩ client request now) queue rest total) with
          jobMarkets := store.jobMarkets.insert request.id market
          events := store.events ++ [.jobQueued market request.id position now] } := by
  obtain ⟨admission, venue, desk, same, found, -, entry, after⟩ := sound.entry_of_apply answer
  cases same
  obtain rfl := sound.named market venue found
  generalize told : JobAdmission.event venue.market.id request.id now (.queued position) = event
    at entry after
  cases entry with
  | queued place queue rest total admissible submitted =>
      exact ⟨venue, place, queue, rest, total, found, admissible, submitted, after⟩

/-- However a job that has come to wait is settled right then, its client is paid, and nothing is
left but the job's own traces. -/
theorem Sound.former_of_settlement (sound : store.Sound) (licensed : store.Licensed)
    (answer : (store.apply now (.createJob market client request)).1 =
      .ok (.jobAdmitted (.queued position)))
    {event : Event} (settles : event.settledJob? = some request.id)
    (step : Step later (store.apply now (.createJob market client request)).2 (.told event) after) :
    ∃ venue ended payee, store.venues.get? market = some venue ∧
      (Job.ofRequest request market client venue.market.params.price venue.market.params.timeout
        now).Settlement store.config later ended payee event ∧
      after = store.withFormerJob market venue ended
        [.jobQueued market request.id position now, event] := by
  obtain ⟨venue, place, queue, rest, total, found, admissible, submitted, entered⟩ :=
    sound.queued_of_apply answer
  have enteredSound := sound.apply now (.createJob market client request)
  rw [entered] at step enteredSound
  obtain rfl := sound.named market venue found
  have formed := (sound.ledgers _ venue found).formed
  have charged := (MarketParams.validate_eq_ok.1 (licensed _ venue found)).1
  have filed := KeyMap.get?_insert_self store.venues venue.market.id
    (Desk.enter ⟨venue, store.balances⟩ client
      (Desk.draft ⟨venue, store.balances⟩ client request now) queue rest total).venue
  obtain ⟨ended, payee, back, refunded, settlement, released, credited, rfl⟩ :=
    step.settle_eq enteredSound settles
      ((record?_of_found filed request.id).trans (KeyMap.get?_insert_self ..)) filed
  refine ⟨venue, ended, payee, found, settlement, ?_⟩
  have unrated := settlement.rateEvent_of_queued rfl rfl
  obtain rfl : payee = client := settlement.payee_of_queued rfl
  change _ = (BalanceBook.balance ⟨store.balances.accounts.insert payee rest⟩ payee).base + _
    at credited
  rw [BalanceBook.balance_of_insert, if_pos rfl] at credited
  have sameId : ended.id = request.id := settlement.same_names.1
  have restored : Desk.settle (Desk.enter ⟨venue, store.balances⟩ payee
        (Desk.draft ⟨venue, store.balances⟩ payee request now) queue rest total)
      (Desk.draft ⟨venue, store.balances⟩ payee request now) ended payee back refunded =
        ⟨venue.withFormerJob ended, store.balances⟩ :=
    Desk.settle_enter formed charged admissible submitted sameId released credited
  simp only [Store.withFormerJob, Store.file, Store.mk.injEq, true_and]
  refine ⟨?_, ?_, ?_, unrated _ _, List.append_assoc ..⟩
  · rw [KeyMap.insert_insert]
    exact congrArg (store.venues.insert _) (congrArg Desk.venue restored)
  · rw [sameId]
  · exact congrArg Desk.balances restored

/-- What the record and the balance of the client are once a job has come to wait. -/
theorem Sound.waits_of_apply (sound : store.Sound)
    (answer : (store.apply now (.createJob market client request)).1 =
      .ok (.jobAdmitted (.queued position))) :
    ∃ venue, store.venues.get? market = some venue ∧
      (store.apply now (.createJob market client request)).2.config = store.config ∧
      (store.apply now (.createJob market client request)).2.record? market request.id =
        some (Job.ofRequest request market client venue.market.params.price
          venue.market.params.timeout now) ∧
      ((store.apply now (.createJob market client request)).2.balance client).base +
        venue.market.params.price.base = (store.balance client).base := by
  obtain ⟨venue, place, queue, rest, total, found, admissible, -, entered⟩ :=
    sound.queued_of_apply answer
  obtain rfl := sound.named market venue found
  rw [entered]
  refine ⟨venue, found, rfl, ?_, ?_⟩
  · exact (record?_of_found (KeyMap.get?_insert_self ..) _).trans (KeyMap.get?_insert_self ..)
  · change (BalanceBook.balance ⟨store.balances.accounts.insert client rest⟩ client).base + _ = _
    rw [BalanceBook.balance_of_insert, if_pos rfl]
    exact admissible.paid

/-- A call that settles the job right then, in one way only, undoes that the job came. -/
theorem Sound.undoes_of_settles (sound : store.Sound) (licensed : store.Licensed)
    (answer : (store.apply now (.createJob market client request)).1 =
      .ok (.jobAdmitted (.queued position)))
    (found : store.venues.get? market = some venue) {call : Operation} {result : Job}
    {event : Event}
    (accepted : (store.apply now (.createJob market client request)).2.Accepts later call)
    (does : ∀ reply changes, call.Does later reply changes →
      ∃ seen, changes = [.told seen] ∧ seen.settledJob? = some request.id ∧
        ∀ ended payee, (Job.ofRequest request market client venue.market.params.price
            venue.market.params.timeout now).Settlement store.config later ended payee seen →
          ended = result ∧ seen = event) :
    store.Undoes (store.apply now (.createJob market client request)).2 later call
      (store.withFormerJob market venue result
        [.jobQueued market request.id position now, event]) := by
  obtain ⟨reply, answered⟩ := accepted
  obtain ⟨changes, done, steps⟩ := steps_of_apply later (sound.apply now _) answered
  obtain ⟨seen, rfl, settles, only⟩ := does reply changes done
  obtain ⟨known, ended, payee, foundKnown, settlement, leaves⟩ :=
    sound.former_of_settlement licensed answer settles steps.single
  rw [found, Option.some.injEq] at foundKnown
  subst foundKnown
  obtain ⟨rfl, rfl⟩ := only ended payee settlement
  exact ⟨⟨reply, answered⟩, leaves, undone_of_insert found rfl rfl rfl rfl⟩

/-- A job that waits can be taken back right away by its client, and by a timeout once its time is
over, and both leave what was there before. -/
theorem Sound.takesBackJob (sound : store.Sound) (licensed : store.Licensed)
    (answer : (store.apply now (.createJob market client request)).1 =
      .ok (.jobAdmitted (.queued position))) :
    ∃ venue waiting, store.TakesBackJob now market client request position venue waiting := by
  obtain ⟨venue, found, sameConfig, recorded, paid⟩ := sound.waits_of_apply answer
  have enteredSound := sound.apply now (.createJob market client request)
  -- the price has just left the balance, so there is room for it
  have room := (store.balance client).base_lt
  rw [← paid] at room
  refine ⟨venue, _, found, rfl, ?_, ?_⟩
  · intro later
    have refund : Store.RefundsIfRoom _ later (.cancelJob request.id client) _ .stopped :=
      enteredSound.cancel_refunds recorded rfl
    obtain ⟨settled, answered⟩ := (refund.refunds room).answered
    apply sound.undoes_of_settles licensed answer found ⟨_, answered⟩
    intro reply changes does
    obtain ⟨place, price, rfl⟩ := does.of_cancelJob
    refine ⟨_, rfl, rfl, ?_⟩
    intro ended payee settlement
    obtain ⟨same, -, told⟩ := settlement.of_jobStopped
    exact ⟨same, told⟩
  · intro queuedToo later passed
    have due : (Job.ofRequest request market client venue.market.params.price
        venue.market.params.timeout now).deadline
          (store.apply now (.createJob market client request)).2.config.expiry =
        some (Time.after now venue.market.params.timeout) := by
      rw [sameConfig, queuedToo]
      rfl
    have refund : Store.RefundsIfRoom _ later (.timeoutJob request.id) _ .timedOut :=
      enteredSound.timeout_refunds recorded due passed
    obtain ⟨settled, answered⟩ := (refund.refunds room).answered
    apply sound.undoes_of_settles licensed answer found ⟨_, answered⟩
    intro reply changes does
    obtain ⟨place, owner, node, price, rfl⟩ := does.of_timeoutJob
    refine ⟨_, rfl, rfl, ?_⟩
    intro ended payee settlement
    obtain ⟨same, -, told⟩ := settlement.of_jobTimedOut
    exact ⟨same, told⟩

/-- What a node that has come to wait leaves behind. -/
theorem Sound.listed_queued (sound : store.Sound)
    (answer : (store.apply now (.listNode market node stake)).1 =
      .ok (.nodeAdmitted (.queued position))) :
    ∃ venue place queue, store.venues.get? market = some venue ∧
      venue.market.queue.submit .node node store.config.capacity = .ok (.queued place, queue) ∧
      (store.apply now (.listNode market node stake)).2 =
        { store with
          venues := store.venues.insert market (venue.withNode queue)
          events := store.events ++ [.nodeQueued market node position now] } := by
  obtain ⟨admission, venue, desk, same, found, -, step, listed⟩ := sound.listing_of_apply answer
  cases same
  obtain rfl := sound.named market venue found
  obtain ⟨place, queue, submitted, -, rfl⟩ | ⟨waiting, queue, -, -, other, -⟩ :=
    Desk.Step.listing_cases step
  · exact ⟨venue, place, queue, found, submitted, listed⟩
  · cases other

/-- A node that waits can be taken out. -/
theorem Sound.accepts_delistNode (sound : store.Sound)
    (found : store.venues.get? market = some venue) (waits : node ∈ venue.waitingNodes) :
    store.Accepts now (.delistNode market node) := by
  apply sound.accepts_of_unrefused now
  intro cause refused
  cases refused with
  | unknownMarket _ _ names missing =>
      cases names
      rw [found] at missing
      cases missing
  | unknownJob _ _ names => cases names
  | delisting _ _ known _ foundKnown why =>
      rw [found, Option.some.injEq] at foundKnown
      subst foundKnown
      cases why with
      | unlisted missing => exact missing waits

/-- A node that waits can be taken back right away, and what was there before is left. -/
theorem Sound.takesBackNode (sound : store.Sound)
    (answer : (store.apply now (.listNode market node stake)).1 =
      .ok (.nodeAdmitted (.queued position))) :
    ∃ venue, store.TakesBackNode now market node stake position venue := by
  obtain ⟨venue, place, queue, found, submitted, listed⟩ := sound.listed_queued answer
  have listedSound := sound.apply now (.listNode market node stake)
  have delisted : ∀ later,
      store.Undoes (store.apply now (.listNode market node stake)).2 later
        (.delistNode market node) (store.withFormerNode market venue
          [.nodeQueued market node position now, .nodeDelisted market node later]) := by
    intro later
    rw [listed] at listedSound ⊢
    have filed := KeyMap.get?_insert_self store.venues market (venue.withNode queue)
    have waits : node ∈ queue.entriesOf .node := by
      rw [(Queue.entriesOf_of_submit_queued submitted).1]
      exact List.mem_append_right _ List.mem_cons_self
    obtain ⟨reply, answered⟩ : Accepts _ later (.delistNode market node) :=
      listedSound.accepts_delistNode filed waits
    refine ⟨⟨reply, answered⟩, ?_, undone_of_insert found rfl rfl rfl rfl⟩
    obtain ⟨changes, done, steps⟩ := steps_of_apply later listedSound answered
    obtain rfl := done.of_delistNode
    have formed := (sound.ledgers market venue found).formed
    have restored := Desk.withQueue_remove formed submitted store.balances
    rw [steps.single.delist_eq listedSound filed]
    simp only [Store.withFormerNode, Store.file, Store.mk.injEq, true_and]
    refine ⟨?_, congrArg Desk.balances restored, List.append_assoc ..⟩
    rw [KeyMap.insert_insert]
    exact congrArg (store.venues.insert market) (congrArg Desk.venue restored)
  refine ⟨venue, found, delisted, ?_⟩
  intro later place id
  rw [(delisted later).leaves, record?_of_insert rfl]
  split
  · rename_i same
    subst same
    exact (record?_of_found found id).symm
  · rfl

/-- In a store that starts empty, whatever was done with it: a job that comes and has to wait can
be withdrawn right then, and timed out past its deadline where waiting jobs time out, and a node
that comes and has to wait can be taken out. Each of them gives back every balance, every vault and
every queue as they were before the arrival, and leaves the record of the job with its index entry,
the counts of the market and the events. -/
theorem withdrawal_undoes_submission {config : Config} {start : Store}
    (opened : new config = .ok start) (moves : List Move) (now : Int64) (market : Key) :
    (∀ client request position,
      ((start.after moves).apply now (.createJob market client request)).1 =
        .ok (.jobAdmitted (.queued position)) →
      ∃ venue waiting,
        (start.after moves).TakesBackJob now market client request position venue waiting) ∧
    ∀ node stake position,
      ((start.after moves).apply now (.listNode market node stake)).1 =
        .ok (.nodeAdmitted (.queued position)) →
      ∃ venue, (start.after moves).TakesBackNode now market node stake position venue := by
  have sound := (sound_of_new opened).after moves
  refine ⟨?_, ?_⟩
  · intro client request position answer
    exact sound.takesBackJob (licensed_after opened moves) answer
  · intro node stake position answer
    exact sound.takesBackNode answer

theorem withdrawal_undoes_submission_trade :
    new {} = .ok (empty {}) ∧
    (∃ venue waiting, ((empty {}).after (trade.take 2)).TakesBackJob 3 waitingJob.market
      waitingJob.client tradeRequest (.ofNat 1) venue waiting) ∧
    ∃ venue, ((empty {}).after (trade.take 2)).TakesBackNode 3 waitingJob.market tradeNode
      .zero (.ofNat 1) venue := by
  have opened : new {} = .ok (empty {}) := rfl
  have queuedJob : (((empty {}).after (trade.take 2)).apply 3
      (.createJob waitingJob.market waitingJob.client tradeRequest)).1 =
        .ok (.jobAdmitted (.queued (.ofNat 1))) := by
    decide +kernel
  have queuedNode : (((empty {}).after (trade.take 2)).apply 3
      (.listNode waitingJob.market tradeNode .zero)).1 =
        .ok (.nodeAdmitted (.queued (.ofNat 1))) := by
    decide +kernel
  obtain ⟨jobs, nodes⟩ :=
    withdrawal_undoes_submission opened (trade.take 2) 3 waitingJob.market
  exact ⟨opened, jobs _ _ _ queuedJob, nodes _ _ _ queuedNode⟩

end Store

end ComputeMarket
