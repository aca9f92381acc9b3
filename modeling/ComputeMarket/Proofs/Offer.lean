import ComputeMarket.Proofs.Submission

/-
This file proves when a market takes a node, and all that the node changes.
-/

namespace ComputeMarket

/-- What a node changes in its market: the market counts the listing as far as counts go, and the
node takes the job that waits longest, which runs on it from then on, or waits last. Nothing else in
the market changes. -/
structure Venue.Employs (venue : Venue) (node : Key) (now : Int64) (admission : NodeAdmission)
    (next : Venue) : Prop where
  counted : next.market.listingCount.value =
    min (venue.market.listingCount.value + 1) 0xffffffffffffffff
  terms : next.market =
    { venue.market with queue := next.market.queue, listingCount := next.market.listingCount }
  vault : next.vault = venue.vault
  waits : venue.waitingJobs = [] → next.jobs = venue.jobs ∧
    next.waitingNodes = venue.waitingNodes ++ [node] ∧ next.waitingJobs = [] ∧
    ∃ position, admission = .queued position ∧ position.value = venue.market.queue.length + 1
  serves : ∀ head others, venue.waitingJobs = head :: others →
    admission = .matched head ∧ next.waitingJobs = others ∧ next.waitingNodes = [] ∧
    (∀ id, id ≠ head → next.jobs.get? id = venue.jobs.get? id) ∧
    ∃ job, venue.jobs.get? head = some job ∧ next.jobs.get? head =
      some { job with node := some node, state := .running, started := now }

namespace Desk.Step

variable {config : Config} {now : Int64} {desk after : Desk} {node : Key}
  {admission : NodeAdmission}

/-- A listed node waits last in the queue, or it takes the job at its head. -/
theorem listing_cases
    (step : Step config now desk (listing desk.venue.market.id node now admission) after) :
    (∃ place queue,
      desk.venue.market.queue.submit .node node config.capacity = .ok (.queued place, queue) ∧
      admission = .queued (Count.ofNat place) ∧
      after = { desk with venue := { desk.venue with market :=
        { desk.venue.market with queue, listingCount := desk.venue.market.listingCount.next } } }) ∨
    ∃ waiting queue,
      desk.venue.market.queue.submit .node node config.capacity =
        .ok (.matched waiting.id, queue) ∧
      desk.venue.jobs.get? waiting.id = some waiting ∧ admission = .matched waiting.id ∧
      after = { desk with venue := { desk.venue with
        market :=
          { desk.venue.market with queue, listingCount := desk.venue.market.listingCount.next }
        jobs := desk.venue.jobs.insert waiting.id
          { waiting with node := some node, state := .running, started := now } } } := by
  generalize told : listing desk.venue.market.id node now admission = event at step
  cases step with
  | nodeQueued known place queue submitted =>
      cases admission <;> cases told
      exact .inl ⟨place, queue, submitted, rfl, rfl⟩
  | headMatched known waiting queue submitted recorded =>
      cases admission <;> cases told
      exact .inr ⟨waiting, queue, submitted, recorded, rfl, rfl⟩
  | nodeDelisted => cases admission <;> cases told
  | settled job ended payee event rest total recorded settlement =>
      cases settlement <;> cases admission <;> cases told

/-- A listing changes in its market the node that came and the job that it took, and nothing else.
-/
theorem employs
    (step : Step config now desk (listing desk.venue.market.id node now admission) after) :
    desk.venue.Employs node now admission after.venue := by
  obtain ⟨place, queue, submitted, rfl, rfl⟩ | ⟨waiting, queue, submitted, recorded, rfl, rfl⟩ :=
    step.listing_cases
  · obtain ⟨joined, -, noJob, stillNone⟩ := Queue.entriesOf_of_submit_queued submitted
    change desk.venue.waitingJobs = [] at noJob
    obtain ⟨-, -, room, rfl, -⟩ := Queue.submit_eq_queued.1 submitted
    refine
      { counted := rfl
        terms := rfl
        vault := rfl
        waits := fun _ => ⟨rfl, joined, stillNone, _, rfl, ?_⟩
        serves := ?_ }
    · exact Nat.min_eq_left (Nat.le_trans room config.capacity.value_le)
    · intro head others some
      rw [noJob] at some
      cases some
  · obtain ⟨served, -, noNode⟩ := Queue.entriesOf_of_submit_matched submitted
    change desk.venue.waitingJobs = waiting.id :: queue.entriesOf .job at served
    refine
      { counted := rfl
        terms := rfl
        vault := rfl
        waits := ?_
        serves := ?_ }
    · intro none
      rw [served] at none
      cases none
    · intro head others first
      rw [served] at first
      cases first
      exact ⟨rfl, rfl, noNode, fun id different => KeyMap.get?_insert_of_ne _ _ different.symm,
        waiting, recorded, KeyMap.get?_insert_self ..⟩

/-- A node that is taken finds a job waiting, or it does not wait yet and finds a free place. -/
theorem place_of_listing
    (step : Step config now desk (listing desk.venue.market.id node now admission) after) :
    desk.venue.waitingJobs ≠ [] ∨
      node ∉ desk.venue.waitingNodes ∧ desk.venue.market.queue.length < config.capacity.value := by
  obtain ⟨place, queue, submitted, -⟩ | ⟨waiting, queue, submitted, -⟩ := step.listing_cases
  · obtain ⟨-, unlisted, room, -, -⟩ := Queue.submit_eq_queued.1 submitted
    exact .inr ⟨unlisted, room⟩
  · have served := (Queue.entriesOf_of_submit_matched submitted).1
    change desk.venue.waitingJobs = waiting.id :: _ at served
    rw [served]
    exact .inl (List.cons_ne_nil _ _)

/-- A listing moves no money. -/
theorem balances_of_listing
    (step : Step config now desk (listing desk.venue.market.id node now admission) after) :
    after.balances = desk.balances := by
  obtain ⟨place, queue, -, -, rfl⟩ | ⟨waiting, queue, -, -, -, rfl⟩ := step.listing_cases
  · rfl
  · rfl

end Desk.Step

namespace Store

/-- A node that nothing stands against: the market exists, the stake is enough, and a job waits, or
the node does not wait yet and the queue has a free place. What the node runs elsewhere, or here,
does not matter. -/
structure Listable (store : Store) (market node : Key) (stake : Stake) (venue : Venue) : Prop where
  found : store.venues.get? market = some venue
  staked : venue.market.params.minimumStake.units ≤ stake.units
  place : venue.waitingJobs ≠ [] ∨
    node ∉ venue.waitingNodes ∧ venue.market.queue.length < store.config.capacity.value

/-- What a node that was taken has changed: its market employs it, and the event was told. Nothing
else in the store changes. -/
structure Listed (store : Store) (now : Int64) (market node : Key) (venue : Venue)
    (admission : NodeAdmission) (next : Venue) (after : Store) : Prop where
  employed : venue.Employs node now admission next
  filed : after.venues.get? market = some next
  otherMarkets : ∀ other, other ≠ market → after.venues.get? other = store.venues.get? other
  index : after.jobMarkets = store.jobMarkets
  balances : after.balances = store.balances
  told : after.events = store.events ++ [Desk.listing market node now admission]
  reputations : after.reputations = store.reputations
  config : after.config = store.config

variable {store : Store} {now : Int64} {market node : Key} {stake : Stake} {venue : Venue}
  {reply : Reply}

/-- A node that is taken is listed in its market, with enough stake. -/
theorem Sound.listing_of_apply (sound : store.Sound)
    (answer : (store.apply now (.listNode market node stake)).1 = .ok reply) :
    ∃ admission venue desk, reply = .nodeAdmitted admission ∧
      store.venues.get? market = some venue ∧
      venue.market.params.minimumStake.units ≤ stake.units ∧
      Desk.Step store.config now ⟨venue, store.balances⟩
        (Desk.listing market node now admission) desk ∧
      (store.apply now (.listNode market node stake)).2 = { store.file market desk with
        events := store.events ++ [Desk.listing market node now admission] } := by
  have outcome : AllOrNothing (Operation.perform now (.listNode market node stake)) store
      (fun reply after => ∃ admission venue desk, reply = .nodeAdmitted admission ∧
        store.venues.get? market = some venue ∧
        venue.market.params.minimumStake.units ≤ stake.units ∧
        Desk.Step store.config now ⟨venue, store.balances⟩
          (Desk.listing market node now admission) desk ∧
        after = { store.file market desk with
          events := store.events ++ [Desk.listing market node now admission] })
      (Operation.Refused now store (.listNode market node stake)) := by
    refine (listNode_listing now sound node stake).map (fun _ refused => refused) ?_
    intro admission after listed
    obtain ⟨venue, desk, worked⟩ := listed
    exact ⟨admission, venue, desk, rfl, worked⟩
  exact apply_of_ok outcome answer

/-- A node that is taken was listable and has changed what it should. -/
theorem Sound.listed_of_apply (sound : store.Sound)
    (answer : (store.apply now (.listNode market node stake)).1 = .ok reply) :
    ∃ venue admission next, store.Listable market node stake venue ∧
      reply = .nodeAdmitted admission ∧
      store.Listed now market node venue admission next
        (store.apply now (.listNode market node stake)).2 := by
  obtain ⟨admission, venue, desk, rfl, found, staked, step, same⟩ := sound.listing_of_apply answer
  obtain rfl := sound.named market venue found
  refine ⟨venue, admission, desk.venue, ⟨found, staked, step.place_of_listing⟩, rfl, ?_⟩
  rw [same]
  exact
    { employed := step.employs
      filed := KeyMap.get?_insert_self ..
      otherMarkets := fun other different => KeyMap.get?_insert_of_ne _ _ different.symm
      index := rfl
      balances := step.balances_of_listing
      told := rfl
      reputations := rfl
      config := rfl }

/-- A node that nothing stands against is taken. -/
theorem Sound.accepts_of_listable (sound : store.Sound)
    (listable : store.Listable market node stake venue) :
    store.Accepts now (.listNode market node stake) := by
  obtain ⟨found, staked, place⟩ := listable
  apply sound.accepts_of_unrefused now
  intro cause refused
  cases refused with
  | unknownMarket _ _ names missing =>
      cases names
      rw [found] at missing
      cases missing
  | unknownJob _ _ names => cases names
  | listing _ _ _ known _ foundKnown why =>
      rw [found] at foundKnown
      cases foundKnown
      cases why with
      | poor short => exact Nat.not_le.2 short staked
      | waiting idle listed =>
          obtain busy | ⟨unlisted, -⟩ := place
          · exact busy idle
          · exact unlisted listed
      | queueFull idle unlisted full =>
          obtain busy | ⟨-, free⟩ := place
          · exact busy idle
          · rw [Queue.length_eq, idle, List.length_nil, Nat.zero_add] at free
            exact Nat.not_le.2 free full

/-- Whatever has been done with a store, new or restored: a node is taken exactly if nothing stands
against it, and then the reply, the market and the events show the node and nothing else. A full
queue stands against nobody who finds a job waiting, nor do the jobs that the node runs. -/
theorem listing_decided {start : Store} (initial : start.Initial) (moves : List Move)
    (now : Int64) (market node : Key) (stake : Stake) :
    ((start.after moves).Accepts now (.listNode market node stake) ↔
      ∃ venue, (start.after moves).Listable market node stake venue) ∧
    ∀ venue, (start.after moves).Listable market node stake venue →
      ∃ admission next,
        ((start.after moves).apply now (.listNode market node stake)).1 =
          .ok (.nodeAdmitted admission) ∧
        (start.after moves).Listed now market node venue admission next
          ((start.after moves).apply now (.listNode market node stake)).2 := by
  have sound := initial.sound.after moves
  refine ⟨⟨?_, ?_⟩, ?_⟩
  · rintro ⟨reply, answer⟩
    obtain ⟨venue, -, -, listable, -⟩ := sound.listed_of_apply answer
    exact ⟨venue, listable⟩
  · rintro ⟨venue, listable⟩
    exact sound.accepts_of_listable listable
  · intro venue listable
    obtain ⟨reply, answer⟩ := sound.accepts_of_listable listable
    obtain ⟨known, admission, next, other, rfl, listed⟩ := sound.listed_of_apply answer
    have same := other.found
    rw [listable.found, Option.some.injEq] at same
    subst same
    exact ⟨admission, next, answer, listed⟩

/-- The node of `trade`. -/
def tradeNode : Key := Key.ofBytes [3]

/-- A history in which a node runs the first of two jobs of a client, and the second job waits. -/
def backlog : List Move :=
  trade.take 2 ++
    [.perform 5 (.deposit waitingJob.client (.ofTokens 3)),
     .perform 6 (.createJob waitingJob.market waitingJob.client tradeRequest),
     .perform 7 (.listNode waitingJob.market tradeNode .zero),
     .perform 8 (.createJob waitingJob.market waitingJob.client
       { tradeRequest with id := Key.ofBytes [5] })]

/-- A node that runs one job is listed again and takes the next one, although the queue is full. -/
theorem listing_decided_busy_node :
    (empty narrow).Initial ∧
    (((empty narrow).after backlog).record? waitingJob.market tradeRequest.id).map
      (fun job => (job.state, job.node)) = some (.running, some tradeNode) ∧
    (((empty narrow).after backlog).venues.get? waitingJob.market).map
      (fun venue => venue.market.queue.length) = some narrow.capacity.value ∧
    ∃ venue next,
      ((empty narrow).after backlog).Listable waitingJob.market tradeNode .zero venue ∧
      ((empty narrow).after backlog).Listed 9 waitingJob.market tradeNode venue
        (.matched (Key.ofBytes [5])) next
        (((empty narrow).after backlog).apply 9
          (.listNode waitingJob.market tradeNode .zero)).2 := by
  have initial : (empty narrow).Initial := .opened narrow rfl
  have busy : (((empty narrow).after backlog).record? waitingJob.market tradeRequest.id).map
      (fun job => (job.state, job.node)) = some (.running, some tradeNode) := by
    decide +kernel
  have full : (((empty narrow).after backlog).venues.get? waitingJob.market).map
      (fun venue => venue.market.queue.length) = some narrow.capacity.value := by
    decide +kernel
  have answer : (((empty narrow).after backlog).apply 9
      (.listNode waitingJob.market tradeNode .zero)).1 =
        .ok (.nodeAdmitted (.matched (Key.ofBytes [5]))) := by
    decide +kernel
  obtain ⟨taken, changes⟩ := listing_decided initial backlog 9 waitingJob.market tradeNode .zero
  obtain ⟨venue, listable⟩ := taken.1 ⟨_, answer⟩
  obtain ⟨admission, next, again, listed⟩ := changes venue listable
  rw [answer] at again
  cases again
  exact ⟨initial, busy, full, venue, next, listable, listed⟩

/-- A snapshot of a market that has counted all the listings that a count can hold. -/
def overlisted : Snapshot where
  version := 1
  markets :=
    [⟨{ Market.new (Key.ofBytes [7]) (Key.ofBytes [1]) ⟨.ofTokens 2, 60, .zero⟩ with
        listingCount := .ofNat 0xffffffffffffffff }, .zero, []⟩]
  balances := .empty
  reputations := .empty

/-- How many listings a market has counted. -/
def listingsCounted (store : Store) (market : Key) : Option Nat :=
  (store.venues.get? market).map fun venue => venue.market.listingCount.value

/-- The largest count stays as it is when one more node is taken. -/
theorem listing_count_saturates :
    ∃ store count, restore overlisted {} = .ok store ∧
      store.listingsCounted (Key.ofBytes [7]) = some count ∧
      (store.apply 3 (.listNode (Key.ofBytes [7]) tradeNode .zero)).1 =
        .ok (.nodeAdmitted (.queued (.ofNat 1))) ∧
      (store.apply 3 (.listNode (Key.ofBytes [7]) tradeNode .zero)).2.listingsCounted
        (Key.ofBytes [7]) ≠ some (count + 1) := by
  have ran : (restore overlisted {}).toOption.map (fun store =>
      let (answer, after) := store.apply 3 (.listNode (Key.ofBytes [7]) tradeNode .zero)
      (store.listingsCounted (Key.ofBytes [7]), answer,
        after.listingsCounted (Key.ofBytes [7]))) =
        some (some 0xffffffffffffffff, .ok (.nodeAdmitted (.queued (.ofNat 1))),
          some 0xffffffffffffffff) := by
    decide +kernel
  cases restored : restore overlisted {} with
  | error cause =>
      rw [restored] at ran
      cases ran
  | ok store =>
      rw [restored] at ran
      simp only [Except.toOption, Option.map_some, Option.some.injEq, Prod.mk.injEq] at ran
      obtain ⟨before, answer, later⟩ := ran
      refine ⟨store, _, rfl, before, answer, ?_⟩
      rw [later]
      decide

end Store

end ComputeMarket
