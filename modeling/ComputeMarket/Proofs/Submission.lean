import ComputeMarket.Proofs.Refund

/-
This file proves when a market takes a new job, and all that the job changes.
-/

namespace ComputeMarket

namespace Venue

/-- The nodes that wait in the queue. -/
def waitingNodes (venue : Venue) : List Key := venue.market.queue.entriesOf .node

/-- The record of a new job: it runs on the node that waits longest, and waits itself where no node
does. -/
def newJob (venue : Venue) (client : Key) (request : JobRequest) (now : Int64) : Job where
  id := request.id
  market := venue.market.id
  client := client
  node := venue.waitingNodes.head?
  definition := request.definition
  result := .zero
  price := venue.market.params.price
  timeout := venue.market.params.timeout
  vram := request.vram
  gpu := request.gpu
  state := if venue.waitingNodes = [] then .queued else .running
  created := now
  started := if venue.waitingNodes = [] then 0 else now
  ended := 0

/-- What a new job changes in its market: its record is added, its price goes into the vault, the
market counts it as far as counts go, and it takes the first waiting node or waits last. Nothing
else in the market changes. -/
structure Gains (venue : Venue) (job : Job) (admission : JobAdmission) (next : Venue) : Prop where
  recorded : next.jobs.get? job.id = some job
  otherJobs : ∀ id, id ≠ job.id → next.jobs.get? id = venue.jobs.get? id
  escrowed : next.vault.balance.base = venue.vault.balance.base + venue.market.params.price.base
  address : next.vault.address = venue.vault.address
  counted : next.market.jobCount.value =
    min (venue.market.jobCount.value + 1) 0xffffffffffffffff
  terms : next.market =
    { venue.market with queue := next.market.queue, jobCount := next.market.jobCount }
  waits : venue.waitingNodes = [] → ∃ position, admission = .queued position ∧
    position.value = venue.market.queue.length + 1 ∧
    next.waitingJobs = venue.waitingJobs ++ [job.id] ∧ next.waitingNodes = []
  runs : ∀ node others, venue.waitingNodes = node :: others →
    admission = .matched node ∧ next.waitingNodes = others ∧ next.waitingJobs = []

end Venue

namespace Desk.Entry

variable {now : Int64} {desk after : Desk} {client : Key} {request : JobRequest} {capacity : Count}
  {admission : JobAdmission} {event : Event} {queue : Queue} {rest total : Amount}

/-- Where no node waits, a new job waits last. -/
theorem gains_queued {place : Nat} (admissible : desk.Admissible client request rest total)
    (submitted : desk.venue.market.queue.submit .job request.id capacity =
      .ok (.queued place, queue)) :
    desk.venue.Gains (desk.venue.newJob client request now) (.queued (Count.ofNat place))
      (desk.enter client (desk.draft client request now) queue rest total).venue := by
  obtain ⟨joined, -, noNode, stillNone⟩ := Queue.entriesOf_of_submit_queued submitted
  change desk.venue.waitingNodes = [] at noNode
  change queue.entriesOf .node = [] at stillNone
  obtain ⟨-, -, room, rfl, -⟩ := Queue.submit_eq_queued.1 submitted
  have draft : desk.draft client request now = desk.venue.newJob client request now := by
    simp only [Venue.newJob, noNode, List.head?_nil, if_true]
    rfl
  rw [draft]
  refine
    { recorded := KeyMap.get?_insert_self ..
      otherJobs := fun id different => KeyMap.get?_insert_of_ne _ _ different.symm
      escrowed := admissible.escrowed
      address := rfl
      counted := rfl
      terms := rfl
      waits := fun _ => ⟨_, rfl, ?_, joined, stillNone⟩
      runs := ?_ }
  · exact Nat.min_eq_left (Nat.le_trans room capacity.value_le)
  · intro node others some
    rw [noNode] at some
    cases some

/-- Where nodes wait, a new job runs on the first of them. -/
theorem gains_matched {node : Key} (admissible : desk.Admissible client request rest total)
    (submitted : desk.venue.market.queue.submit .job request.id capacity =
      .ok (.matched node, queue)) :
    desk.venue.Gains (desk.venue.newJob client request now) (.matched node)
      (desk.enter client
        { desk.draft client request now with node := some node, state := .running, started := now }
        queue rest total).venue := by
  obtain ⟨served, -, noJob⟩ := Queue.entriesOf_of_submit_matched submitted
  change desk.venue.waitingNodes = node :: queue.entriesOf .node at served
  have running : { desk.draft client request now with
      node := some node, state := .running, started := now } =
      desk.venue.newJob client request now := by
    simp only [Venue.newJob, served, List.head?_cons, reduceCtorEq, if_false]
    rfl
  rw [running]
  refine
    { recorded := KeyMap.get?_insert_self ..
      otherJobs := fun id different => KeyMap.get?_insert_of_ne _ _ different.symm
      escrowed := admissible.escrowed
      address := rfl
      counted := rfl
      terms := rfl
      waits := ?_
      runs := ?_ }
  · intro none
    rw [served] at none
    cases none
  · intro head others waiting
    rw [served] at waiting
    cases waiting
    exact ⟨rfl, rfl, noJob⟩

/-- A market gains the job that enters it, whether the job waits or runs. -/
theorem gains (entry : Entry client request capacity now desk admission event after) :
    desk.venue.Gains (desk.venue.newJob client request now) admission after.venue := by
  cases entry with
  | queued place queue rest total admissible submitted => exact gains_queued admissible submitted
  | matched node queue rest total admissible submitted => exact gains_matched admissible submitted

/-- A client pays the price of its new job, and nobody else pays. -/
theorem paid (entry : Entry client request capacity now desk admission event after) :
    (after.balances.balance client).base + desk.venue.market.params.price.base =
        (desk.balances.balance client).base ∧
      ∀ account, account ≠ client →
        after.balances.balance account = desk.balances.balance account := by
  have insert {rest : Amount} (paid : rest.base + desk.venue.market.params.price.base =
      (desk.balances.balance client).base) :
      ((BalanceBook.mk (desk.balances.accounts.insert client rest)).balance client).base +
          desk.venue.market.params.price.base = (desk.balances.balance client).base ∧
        ∀ account, account ≠ client →
          (BalanceBook.mk (desk.balances.accounts.insert client rest)).balance account =
            desk.balances.balance account := by
    refine ⟨?_, ?_⟩
    · rw [BalanceBook.balance_of_insert, if_pos rfl]
      exact paid
    · intro account different
      rw [BalanceBook.balance_of_insert, if_neg different.symm]
  cases entry with
  | queued place queue rest total admissible => exact insert admissible.paid
  | matched node queue rest total admissible => exact insert admissible.paid

end Desk.Entry

namespace Store

/-- A request that nothing stands against: the market exists, no job ever had the id, the job is
defined, the client can pay, the vault has room, and a node waits or the queue has a free place. -/
structure Submittable (store : Store) (market client : Key) (request : JobRequest) (venue : Venue) :
    Prop where
  found : store.venues.get? market = some venue
  unused : ∀ place, store.record? place request.id = none
  defined : request.definition ≠ .zero
  funded : venue.market.params.price.base ≤ (store.balance client).base
  room : venue.vault.balance.base + venue.market.params.price.base ≤ 0xffffffffffffffff
  place : venue.waitingNodes ≠ [] ∨ venue.market.queue.length < store.config.capacity.value

/-- What a request that was taken has changed: its market gained the job, the index has its id, the
client paid the price, and the event was told. Nothing else in the store changes. -/
structure Submitted (store : Store) (now : Int64) (market client : Key) (request : JobRequest)
    (venue : Venue) (admission : JobAdmission) (next : Venue) (after : Store) : Prop where
  gained : venue.Gains (venue.newJob client request now) admission next
  filed : after.venues.get? market = some next
  otherMarkets : ∀ other, other ≠ market → after.venues.get? other = store.venues.get? other
  indexed : after.jobMarkets.get? request.id = some market
  otherJobs : ∀ id, id ≠ request.id → after.jobMarkets.get? id = store.jobMarkets.get? id
  paid : (after.balance client).base + venue.market.params.price.base =
    (store.balance client).base
  otherAccounts : ∀ account, account ≠ client → after.balance account = store.balance account
  told : after.events = store.events ++ [admission.event market request.id now]
  reputations : after.reputations = store.reputations
  config : after.config = store.config

variable {store : Store} {now : Int64} {market client : Key} {request : JobRequest} {venue : Venue}
  {reply : Reply}

/-- An id is not in the index exactly if no market has a job with it. -/
theorem Sound.unindexed_iff (sound : store.Sound) {id : Key} :
    store.jobMarkets.get? id = none ↔ ∀ market, store.record? market id = none := by
  constructor
  · intro unindexed market
    cases recorded : store.record? market id with
    | none => rfl
    | some job =>
        rw [sound.indexed_iff.2 ⟨job, recorded⟩] at unindexed
        cases unindexed
  · intro unrecorded
    cases indexed : store.jobMarkets.get? id with
    | none => rfl
    | some market =>
        obtain ⟨job, recorded⟩ := sound.indexed_iff.1 indexed
        rw [unrecorded market] at recorded
        cases recorded

/-- A job that entered was submittable. -/
theorem Sound.submittable_of_entry (sound : store.Sound)
    (found : store.venues.get? market = some venue)
    (unused : store.jobMarkets.get? request.id = none) {admission : JobAdmission} {event : Event}
    {desk : Desk} (entry : Desk.Entry client request store.config.capacity now
      ⟨venue, store.balances⟩ admission event desk) :
    store.Submittable market client request venue := by
  have admissible : ∃ rest total,
      Desk.Admissible ⟨venue, store.balances⟩ client request rest total := by
    cases entry with
    | queued _ _ rest total admissible => exact ⟨rest, total, admissible⟩
    | matched _ _ rest total admissible => exact ⟨rest, total, admissible⟩
  obtain ⟨rest, total, admissible⟩ := admissible
  refine
    { found
      unused := sound.unindexed_iff.1 unused
      defined := admissible.defined
      funded := ?_
      room := ?_
      place := ?_ }
  · exact Nat.le.intro ((Nat.add_comm _ _).trans admissible.paid)
  · rw [← admissible.escrowed]
    exact Nat.le_of_lt_succ total.base_lt
  · cases entry with
    | queued _ _ _ _ _ submitted =>
        obtain ⟨-, -, room, -, -⟩ := Queue.submit_eq_queued.1 submitted
        exact .inr room
    | matched node _ _ _ _ submitted =>
        have served := (Queue.entriesOf_of_submit_matched submitted).1
        change venue.waitingNodes = node :: _ at served
        rw [served]
        exact .inl (List.cons_ne_nil _ _)

/-- A request that is taken enters its market. -/
theorem Sound.entry_of_apply (sound : store.Sound)
    (answer : (store.apply now (.createJob market client request)).1 = .ok reply) :
    ∃ admission venue desk, reply = .jobAdmitted admission ∧
      store.venues.get? market = some venue ∧ store.jobMarkets.get? request.id = none ∧
      Desk.Entry client request store.config.capacity now ⟨venue, store.balances⟩ admission
        (admission.event market request.id now) desk ∧
      (store.apply now (.createJob market client request)).2 = { store.file market desk with
        jobMarkets := store.jobMarkets.insert request.id market
        events := store.events ++ [admission.event market request.id now] } := by
  have outcome : AllOrNothing (Operation.perform now (.createJob market client request)) store
      (fun reply after => ∃ admission venue desk, reply = .jobAdmitted admission ∧
        store.venues.get? market = some venue ∧ store.jobMarkets.get? request.id = none ∧
        Desk.Entry client request store.config.capacity now ⟨venue, store.balances⟩ admission
          (admission.event market request.id now) desk ∧
        after = { store.file market desk with
          jobMarkets := store.jobMarkets.insert request.id market
          events := store.events ++ [admission.event market request.id now] })
      (Operation.Refused now store (.createJob market client request)) := by
    refine (createJob_entry now sound client request).map (fun _ refused => refused) ?_
    intro admission after entered
    obtain ⟨venue, desk, worked⟩ := entered
    exact ⟨admission, venue, desk, rfl, worked⟩
  exact apply_of_ok outcome answer

/-- A request that is taken was submittable and has changed what it should. -/
theorem Sound.submitted_of_apply (sound : store.Sound)
    (answer : (store.apply now (.createJob market client request)).1 = .ok reply) :
    ∃ venue admission next, store.Submittable market client request venue ∧
      reply = .jobAdmitted admission ∧
      store.Submitted now market client request venue admission next
        (store.apply now (.createJob market client request)).2 := by
  obtain ⟨admission, venue, desk, rfl, found, unused, entry, same⟩ := sound.entry_of_apply answer
  have submittable := sound.submittable_of_entry found unused entry
  refine ⟨venue, admission, desk.venue, submittable, rfl, ?_⟩
  rw [same]
  exact
    { gained := entry.gains
      filed := KeyMap.get?_insert_self ..
      otherMarkets := fun other different => KeyMap.get?_insert_of_ne _ _ different.symm
      indexed := KeyMap.get?_insert_self ..
      otherJobs := fun id different => KeyMap.get?_insert_of_ne _ _ different.symm
      paid := entry.paid.1
      otherAccounts := entry.paid.2
      told := rfl
      reputations := rfl
      config := rfl }

/-- A request that nothing stands against is taken. -/
theorem Sound.accepts_of_submittable (sound : store.Sound)
    (submittable : store.Submittable market client request venue) :
    store.Accepts now (.createJob market client request) := by
  obtain ⟨found, unused, defined, funded, room, place⟩ := submittable
  apply sound.accepts_of_unrefused now
  intro cause refused
  cases refused with
  | unknownMarket _ _ names missing =>
      cases names
      rw [found] at missing
      cases missing
  | unknownJob _ _ names => cases names
  | usedJob _ _ _ used =>
      rw [KeyMap.contains_eq_false.2 (sound.unindexed_iff.2 unused)] at used
      cases used
  | entry _ _ _ known _ foundKnown why =>
      rw [found] at foundKnown
      cases foundKnown
      cases why with
      | undefined zero => exact defined zero
      | known recorded =>
          obtain ⟨job, filed⟩ := KeyMap.contains_iff_exists.1 recorded
          rw [← record?_of_found found, unused market] at filed
          cases filed
      | poor short => exact Nat.not_le.2 short funded
      | overflow large => exact Nat.not_le.2 large room
      | queueFull unserved full =>
          obtain served | free := place
          · exact served unserved
          · rw [Queue.length_eq, unserved, List.length_nil, Nat.add_zero] at free
            exact Nat.not_le.2 free full

/-- Whatever has been done with a store, new or restored: a request is taken exactly if nothing
stands against it, and then the reply, the market, the index, the balances and the events show the
new job and nothing else. A full queue stands against nobody who finds a node waiting. -/
theorem submission_decided {start : Store} (initial : start.Initial) (moves : List Move)
    (now : Int64) (market client : Key) (request : JobRequest) :
    ((start.after moves).Accepts now (.createJob market client request) ↔
      ∃ venue, (start.after moves).Submittable market client request venue) ∧
    ∀ venue, (start.after moves).Submittable market client request venue →
      ∃ admission next,
        ((start.after moves).apply now (.createJob market client request)).1 =
          .ok (.jobAdmitted admission) ∧
        (start.after moves).Submitted now market client request venue admission next
          ((start.after moves).apply now (.createJob market client request)).2 := by
  have sound := initial.sound.after moves
  refine ⟨⟨?_, ?_⟩, ?_⟩
  · rintro ⟨reply, answer⟩
    obtain ⟨venue, -, -, submittable, -⟩ := sound.submitted_of_apply answer
    exact ⟨venue, submittable⟩
  · rintro ⟨venue, submittable⟩
    exact sound.accepts_of_submittable submittable
  · intro venue submittable
    obtain ⟨reply, answer⟩ := sound.accepts_of_submittable submittable
    obtain ⟨known, admission, next, other, rfl, submitted⟩ := sound.submitted_of_apply answer
    have same := other.found
    rw [submittable.found, Option.some.injEq] at same
    subst same
    exact ⟨admission, next, answer, submitted⟩

/-- A configuration in which one entry fills a queue. -/
def narrow : Config := { capacity := .ofNat 1 }

/-- A history in which a node waits in a new market, and a client has funds. -/
def awaited : List Move :=
  trade.take 2 ++ [.perform 3 (.listNode waitingJob.market (Key.ofBytes [3]) .zero)]

/-- The request of the job in `trade`. -/
def tradeRequest : JobRequest := ⟨Key.ofBytes [4], ⟨Word.ofNumber 5⟩, 8, .any⟩

/-- A queue that is full of nodes takes a new job. -/
theorem submission_decided_full_queue :
    (empty narrow).Initial ∧
    (((empty narrow).after awaited).venues.get? waitingJob.market).map
      (fun venue => venue.market.queue.length) = some narrow.capacity.value ∧
    ∃ venue next,
      ((empty narrow).after awaited).Submittable waitingJob.market waitingJob.client tradeRequest
        venue ∧
      ((empty narrow).after awaited).Submitted 5 waitingJob.market waitingJob.client tradeRequest
        venue (.matched (Key.ofBytes [3])) next
        (((empty narrow).after awaited).apply 5
          (.createJob waitingJob.market waitingJob.client tradeRequest)).2 := by
  have initial : (empty narrow).Initial := .opened narrow rfl
  have full : (((empty narrow).after awaited).venues.get? waitingJob.market).map
      (fun venue => venue.market.queue.length) = some narrow.capacity.value := by
    decide +kernel
  have answer : (((empty narrow).after awaited).apply 5
      (.createJob waitingJob.market waitingJob.client tradeRequest)).1 =
        .ok (.jobAdmitted (.matched (Key.ofBytes [3]))) := by
    decide +kernel
  obtain ⟨taken, changes⟩ := submission_decided initial awaited 5 waitingJob.market
    waitingJob.client tradeRequest
  obtain ⟨venue, submittable⟩ := taken.1 ⟨_, answer⟩
  obtain ⟨admission, next, again, submitted⟩ := changes venue submittable
  rw [answer] at again
  cases again
  exact ⟨initial, full, venue, next, submittable, submitted⟩

/-- A snapshot of a market that has counted all the jobs that a count can hold, and of a client with
funds. -/
def counted : Snapshot where
  version := 1
  markets :=
    [⟨{ Market.new (Key.ofBytes [7]) (Key.ofBytes [1]) ⟨.ofTokens 2, 60, .zero⟩ with
        jobCount := .ofNat 0xffffffffffffffff }, .zero, []⟩]
  balances := ⟨KeyMap.empty.insert (Key.ofBytes [2]) (.ofTokens 3)⟩
  reputations := .empty

/-- How many jobs a market has counted. -/
def jobsCounted (store : Store) (market : Key) : Option Nat :=
  (store.venues.get? market).map fun venue => venue.market.jobCount.value

/-- The largest count stays as it is when one more job is taken. -/
theorem job_count_saturates :
    ∃ store venue next, restore counted {} = .ok store ∧
      store.venues.get? (Key.ofBytes [7]) = some venue ∧
      (store.apply 3 (.createJob (Key.ofBytes [7]) (Key.ofBytes [2]) tradeRequest)).1 =
        .ok (.jobAdmitted (.queued (.ofNat 1))) ∧
      (store.apply 3 (.createJob (Key.ofBytes [7]) (Key.ofBytes [2]) tradeRequest)).2.venues.get?
        (Key.ofBytes [7]) = some next ∧
      next.market.jobCount.value ≠ venue.market.jobCount.value + 1 := by
  have ran : (restore counted {}).toOption.map (fun store =>
      let (answer, after) :=
        store.apply 3 (.createJob (Key.ofBytes [7]) (Key.ofBytes [2]) tradeRequest)
      (store.jobsCounted (Key.ofBytes [7]), answer, after.jobsCounted (Key.ofBytes [7]))) =
        some (some 0xffffffffffffffff, .ok (.jobAdmitted (.queued (.ofNat 1))),
          some 0xffffffffffffffff) := by
    decide +kernel
  cases restored : restore counted {} with
  | error cause =>
      rw [restored] at ran
      cases ran
  | ok store =>
      rw [restored] at ran
      simp only [Except.toOption, Option.map_some, Option.some.injEq, Prod.mk.injEq] at ran
      obtain ⟨before, answer, later⟩ := ran
      obtain ⟨venue, found, largest⟩ := Option.map_eq_some_iff.1 before
      obtain ⟨next, filed, stayed⟩ := Option.map_eq_some_iff.1 later
      refine ⟨store, venue, next, rfl, found, answer, filed, ?_⟩
      rw [largest, stayed]
      decide

end Store

end ComputeMarket
