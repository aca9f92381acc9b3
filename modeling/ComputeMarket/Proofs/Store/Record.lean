import ComputeMarket.Proofs.Store.History

/-
This file follows the record of one job through the changes of a store.
-/

namespace ComputeMarket

/-- The job that an event tells to be settled. -/
def Event.settledJob? : Event → Option Key
  | jobCompleted _ job .. | jobStopped _ job .. | jobTimedOut _ job .. => some job
  | _ => none

/-- What one change of a store does to the record of a job: nothing, or the job that waits takes a
node, or the open job is settled. -/
inductive Job.Turn (config : Config) (now : Int64) (job : Job) : Change → Job → Prop
  | kept (seen : Change) : Turn config now job seen job
  | started (node : Key) (queued : job.state = .queued) (free : job.node = none) :
      Turn config now job (.told (.jobMatched job.market job.id node now))
        { job with node := some node, state := .running, started := now }
  | settled (ended : Job) (payee : Key) (event : Event)
      (settlement : job.Settlement config now ended payee event) :
      Turn config now job (.told event) ended

/-- The record of a job that is settled does not change any more. -/
theorem Job.Turn.eq_of_not_isOpen {config : Config} {now : Int64} {job next : Job} {seen : Change}
    (turn : job.Turn config now seen next) (ended : job.isOpen = false) : next = job := by
  cases turn with
  | kept => rfl
  | started node queued =>
      rw [isOpen, queued] at ended
      cases ended
  | settled next payee event settlement =>
      rw [settlement.isOpen] at ended
      cases ended

namespace Desk

variable {config : Config} {now : Int64} {desk after : Desk} {event : Event} {id : Key} {job : Job}

/-- A step of a market gives each of its records one turn. -/
theorem Step.turn (sound : desk.venue.Sound) (step : Step config now desk event after)
    (recorded : desk.venue.jobs.get? id = some job) :
    ∃ next, after.venue.jobs.get? id = some next ∧ job.Turn config now (.told event) next := by
  cases step with
  | nodeQueued => exact ⟨job, recorded, .kept _⟩
  | nodeDelisted => exact ⟨job, recorded, .kept _⟩
  | headMatched node waiting queue submitted found queued free =>
      by_cases same : waiting.id = id
      · subst same
        rw [recorded, Option.some.injEq] at found
        subst found
        refine ⟨_, KeyMap.get?_insert_self .., ?_⟩
        rw [← (sound.filed job.id job recorded).2]
        exact .started node queued free
      · exact ⟨job, (KeyMap.get?_insert_of_ne _ _ same).trans recorded, .kept _⟩
  | settled known ended payee event rest total found settlement =>
      by_cases same : known.id = id
      · subst same
        rw [recorded, Option.some.injEq] at found
        subst found
        exact ⟨ended, KeyMap.get?_insert_self .., .settled ended payee event settlement⟩
      · exact ⟨job, (KeyMap.get?_insert_of_ne _ _ same).trans recorded, .kept _⟩

/-- What is on record after a step was on record before it. -/
theorem Step.origin (sound : desk.venue.Sound) (step : Step config now desk event after) {next : Job}
    (found : after.venue.jobs.get? id = some next) :
    ∃ job, desk.venue.jobs.get? id = some job ∧ job.Turn config now (.told event) next := by
  have known := (step.contains_iff id).1 (KeyMap.contains_iff_exists.2 ⟨next, found⟩)
  obtain ⟨job, recorded⟩ := KeyMap.contains_iff_exists.1 known
  obtain ⟨same, again, turn⟩ := step.turn sound recorded
  rw [found, Option.some.injEq] at again
  subst again
  exact ⟨job, recorded, turn⟩

variable {client : Key} {request : JobRequest} {capacity : Count} {admission : JobAdmission}

/-- A new job touches no record that is there. -/
theorem Entry.get?_eq_some (entry : Entry client request capacity now desk admission event after)
    (recorded : desk.venue.jobs.get? id = some job) : after.venue.jobs.get? id = some job := by
  have different (fresh : desk.venue.jobs.get? request.id = none) : request.id ≠ id := by
    intro same
    rw [same, recorded] at fresh
    cases fresh
  cases entry with
  | queued place queue rest total admissible =>
      exact (KeyMap.get?_insert_of_ne _ _ (different admissible.fresh)).trans recorded
  | matched node queue rest total admissible =>
      exact (KeyMap.get?_insert_of_ne _ _ (different admissible.fresh)).trans recorded

/-- The only new record is that of the new job, which is open and has no result and no end. -/
theorem Entry.get?_new (entry : Entry client request capacity now desk admission event after)
    (recorded : after.venue.jobs.get? id = some job) :
    desk.venue.jobs.get? id = some job ∨
      id = request.id ∧ job.isOpen = true ∧ job.result = .zero ∧ job.ended = 0 := by
  cases entry with
  | queued =>
      change (desk.venue.jobs.insert request.id _).get? id = some job at recorded
      rw [KeyMap.get?_insert] at recorded
      split at recorded
      · rename_i same
        cases recorded
        exact .inr ⟨same.symm, rfl, rfl, rfl⟩
      · exact .inl recorded
  | matched =>
      change (desk.venue.jobs.insert request.id _).get? id = some job at recorded
      rw [KeyMap.get?_insert] at recorded
      split at recorded
      · rename_i same
        cases recorded
        exact .inr ⟨same.symm, rfl, rfl, rfl⟩
      · exact .inl recorded

end Desk

namespace Store

/-- The record of a job in a market. -/
def record? (store : Store) (market id : Key) : Option Job := do
  (← store.venues.get? market).jobs.get? id

variable {now : Int64} {store after : Store} {seen : Change} {changes : List Change}
  {market other id : Key} {job next : Job}

/-- A record is found in an open market, under its id. -/
theorem record?_eq_some : store.record? market id = some job ↔
    ∃ venue, store.venues.get? market = some venue ∧ venue.jobs.get? id = some job :=
  Option.bind_eq_some_iff

theorem record?_of_found {venue : Venue} (found : store.venues.get? market = some venue) (id : Key) :
    store.record? market id = venue.jobs.get? id := by
  rw [record?, found]
  rfl

/-- A market that is put back changes its own records and no others. -/
theorem record?_of_insert {venue : Venue} (venues : after.venues = store.venues.insert market venue)
    (other id : Key) :
    after.record? other id =
      if market = other then venue.jobs.get? id else store.record? other id := by
  rw [record?, venues, KeyMap.get?_insert]
  split <;> rfl

/-- Every record is filed under the names that it bears. -/
theorem Sound.names (sound : store.Sound) (recorded : store.record? market id = some job) :
    job.id = id ∧ job.market = market := by
  obtain ⟨venue, found, filed⟩ := record?_eq_some.1 recorded
  obtain ⟨sameId, sameMarket⟩ := (sound.ledgers market venue found).filed id job filed
  exact ⟨sameId, sameMarket.trans (sound.named market venue found)⟩

/-- The index leads to the market in which a record is found. -/
theorem Sound.indexed_iff (sound : store.Sound) :
    store.jobMarkets.get? id = some market ↔ ∃ job, store.record? market id = some job := by
  rw [sound.indexed]
  simp only [record?_eq_some, KeyMap.contains_iff_exists]
  constructor
  · rintro ⟨venue, found, job, filed⟩
    exact ⟨job, venue, found, filed⟩
  · rintro ⟨job, venue, found, filed⟩
    exact ⟨venue, found, job, filed⟩

/-- No id has records in two markets. -/
theorem Sound.market_unique (sound : store.Sound) (recorded : store.record? market id = some job)
    (otherRecorded : store.record? other id = some next) : market = other ∧ job = next := by
  have first := sound.indexed_iff.2 ⟨job, recorded⟩
  have second := sound.indexed_iff.2 ⟨next, otherRecorded⟩
  rw [first, Option.some.injEq] at second
  subst second
  rw [recorded, Option.some.injEq] at otherRecorded
  exact ⟨rfl, otherRecorded⟩

/-- The query for a job finds its record. -/
theorem Sound.job?_eq_some (sound : store.Sound) (recorded : store.record? market id = some job) :
    store.job? id = some job := by
  have indexed := sound.indexed_iff.2 ⟨job, recorded⟩
  unfold job?
  rw [indexed]
  exact recorded

/-- No change of a store changes its configuration. -/
theorem Step.config (step : Step now store seen after) : after.config = store.config := by
  cases step <;> rfl

theorem Steps.config (steps : Steps now store changes after) : after.config = store.config := by
  induction steps with
  | none store => rfl
  | more first rest inductionHypothesis => rw [inductionHypothesis, first.config]

/-- A store keeps its configuration for its whole life. -/
theorem Sound.config_after (sound : store.Sound) (moves : List Move) :
    (store.after moves).config = store.config := by
  apply sound.invariant_after (fun later => later.config = store.config) rfl
  · intro later same
    exact same
  · intro now later next seen laterSound same step
    exact step.config.trans same

/-- The index changes with a new job only. -/
theorem Step.index_of_told (step : Step now store seen after)
    (told : ∀ event, seen ≠ .entered event) : after.jobMarkets = store.jobMarkets := by
  cases step with
  | entered => exact absurd rfl (told _)
  | _ => rfl

theorem Steps.index_of_told (steps : Steps now store changes after)
    (told : ∀ seen ∈ changes, ∀ event, seen ≠ .entered event) :
    after.jobMarkets = store.jobMarkets := by
  induction steps with
  | none store => rfl
  | more first rest inductionHypothesis =>
      rw [List.forall_mem_cons] at told
      rw [inductionHypothesis told.2, first.index_of_told told.1]

/-- No change loses a record, and the record makes at most one turn. -/
theorem Step.turn (sound : store.Sound) (step : Step now store seen after)
    (recorded : store.record? market id = some job) :
    ∃ next, after.record? market id = some next ∧ job.Turn store.config now seen next := by
  obtain ⟨venue, found, filed⟩ := record?_eq_some.1 recorded
  cases step with
  | opened new authority params fresh =>
      have different : new ≠ market := by
        intro same
        rw [same, found] at fresh
        cases fresh
      refine ⟨job, ?_, .kept _⟩
      rw [record?_of_insert rfl, if_neg different, recorded]
  | paid => exact ⟨job, recorded, .kept _⟩
  | entered place client request known admission event desk foundPlace unused entry =>
      refine ⟨job, ?_, .kept _⟩
      rw [record?_of_insert rfl]
      by_cases same : place = market
      · subst same
        rw [found, Option.some.injEq] at foundPlace
        subst foundPlace
        rw [if_pos rfl]
        exact entry.get?_eq_some filed
      · rw [if_neg same, recorded]
  | traded place known event desk foundPlace step =>
      rw [record?_of_insert rfl]
      by_cases same : place = market
      · subst same
        rw [found, Option.some.injEq] at foundPlace
        subst foundPlace
        rw [if_pos rfl]
        exact step.turn (sound.ledgers place venue found) filed
      · rw [if_neg same]
        exact ⟨job, recorded, .kept _⟩

/-- The event of a settlement comes from a job on record, which is settled, and whose price is paid
out. -/
theorem Step.settlement {event : Event} (step : Step now store (.told event) after)
    (settles : event.settledJob? = some id) :
    ∃ market job ended payee, store.record? market id = some job ∧
      job.Settlement store.config now ended payee event ∧
      after.record? market id = some ended ∧
      (after.balance payee).base = (store.balance payee).base + job.price.base := by
  cases step with
  | opened => cases settles
  | traded market venue event desk found step =>
      cases step with
      | nodeQueued => cases settles
      | headMatched => cases settles
      | nodeDelisted => cases settles
      | settled job ended payee event rest total recorded settlement released credited =>
          have same : job.id = id := by
            cases settlement <;> exact Option.some.inj settles
          subst same
          refine ⟨market, job, ended, payee, ?_, settlement, ?_, ?_⟩
          · rw [record?_of_found found]
            exact recorded
          · rw [record?_of_insert rfl, if_pos rfl]
            exact KeyMap.get?_insert_self ..
          · change ((BalanceBook.mk (store.balances.accounts.insert payee total)).balance payee).base = _
            rw [BalanceBook.balance_of_insert, if_pos rfl]
            exact credited

/-- All that the settlement of a job on record changes in the store. -/
theorem Step.settle_eq {event : Event} {venue : Venue} (sound : store.Sound)
    (step : Step now store (.told event) after) (settles : event.settledJob? = some id)
    (recorded : store.record? market id = some job)
    (found : store.venues.get? market = some venue) :
    ∃ ended payee rest total, job.Settlement store.config now ended payee event ∧
      rest.base + job.price.base = venue.vault.balance.base ∧
      total.base = (store.balance payee).base + job.price.base ∧
      after = { store.file market (Desk.settle ⟨venue, store.balances⟩ job ended payee rest total) with
        reputations :=
          store.config.rateEvent now (venue.jobs.insert job.id ended) event store.reputations
        events := store.events ++ [event] } := by
  cases step with
  | opened => cases settles
  | traded place known event desk foundPlace step =>
      cases step with
      | nodeQueued => cases settles
      | headMatched => cases settles
      | nodeDelisted => cases settles
      | settled other ended payee event rest total filed settlement released credited =>
          have same : other.id = id := by
            cases settlement <;> exact Option.some.inj settles
          subst same
          have otherRecorded := record?_eq_some.2 ⟨known, foundPlace, filed⟩
          obtain ⟨rfl, rfl⟩ := sound.market_unique recorded otherRecorded
          rw [found, Option.some.injEq] at foundPlace
          subst foundPlace
          exact ⟨ended, payee, rest, total, settlement, released, credited, rfl⟩

/-- A record was there before a change, or it is that of a job that came in, open and without a
result or an end. -/
theorem Step.origin (sound : store.Sound) (step : Step now store seen after)
    (recorded : after.record? market id = some next) :
    (∃ job, store.record? market id = some job ∧ job.Turn store.config now seen next) ∨
      next.isOpen = true ∧ next.result = .zero ∧ next.ended = 0 := by
  cases before : store.record? market id with
  | some job =>
      obtain ⟨same, found, turn⟩ := step.turn sound before
      rw [recorded, Option.some.injEq] at found
      subst found
      exact .inl ⟨job, rfl, turn⟩
  | none =>
      right
      by_contra old
      have other : store.record? market id ≠ some next := by
        rw [before]
        exact nofun
      cases step with
      | opened new authority params fresh =>
          rw [record?_of_insert rfl] at recorded
          split at recorded
          · cases recorded
          · exact other recorded
      | paid => exact other recorded
      | entered place client request venue admission event desk found unused entry =>
          rw [record?_of_insert rfl] at recorded
          split at recorded
          · rename_i same
            subst same
            obtain filed | ⟨-, fresh⟩ := entry.get?_new recorded
            · exact other (record?_eq_some.2 ⟨venue, found, filed⟩)
            · exact old fresh
          · exact other recorded
      | traded place venue event desk found step =>
          rw [record?_of_insert rfl] at recorded
          split at recorded
          · rename_i same
            subst same
            obtain ⟨job, filed, -⟩ := step.origin (sound.ledgers place venue found) recorded
            rw [record?_eq_some.2 ⟨venue, found, filed⟩] at before
            cases before
          · exact other recorded

/-- Timeouts, however many, turn every record at most once. -/
theorem Steps.turn_of_timeouts (sound : store.Sound) {ended : List Job}
    (steps : Steps now store (ended.map fun job => .told (job.timeoutEvent now)) after)
    (recorded : store.record? market id = some job) :
    ∃ next seen, after.record? market id = some next ∧ job.Turn store.config now seen next := by
  induction ended generalizing store job with
  | nil =>
      cases steps
      exact ⟨job, _, recorded, .kept (.paid id .zero)⟩
  | cons first rest inductionHypothesis =>
      rw [List.map_cons] at steps
      cases steps with
      | more step later =>
          obtain ⟨middle, found, turn⟩ := step.turn sound recorded
          obtain ⟨next, seen, last, laterTurn⟩ := inductionHypothesis (step.sound sound) later found
          rw [step.config] at laterTurn
          -- the first timeout leaves the record alone or settles it, and then the rest leave it alone
          cases turn with
          | kept => exact ⟨next, seen, last, laterTurn⟩
          | settled _ payee event settlement =>
              rw [laterTurn.eq_of_not_isOpen settlement.not_isOpen] at last
              exact ⟨middle, _, last, .settled middle payee _ settlement⟩

end Store

end ComputeMarket
