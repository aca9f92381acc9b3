import ComputeMarket.Proofs.Consistency
import ComputeMarket.Proofs.Deadline
import ComputeMarket.Proofs.Store.Acceptance

/-
This file proves that a sweep of a market is a run of single timeouts, one for each job past its
deadline from the oldest on, that it ends all that can be ended, and that a second sweep finds
nothing more to do.
-/

namespace ComputeMarket

namespace Job

/-- Jobs chosen from a sorted list are sorted. -/
theorem sortByAge_filter {jobs : List Job} (distinct : (jobs.map Job.id).Nodup)
    (chosen : Job → Bool) : sortByAge (jobs.filter chosen) = (sortByAge jobs).filter chosen := by
  have permuted := (sortByAge_perm jobs).filter chosen
  refine List.Perm.eq_of_pairwise ?_ (sortByAge_pairwise _)
    ((sortByAge_pairwise jobs).filter chosen) ((sortByAge_perm _).trans permuted.symm)
  intro first second inside other before later
  have known := (List.mem_filter.1 ((sortByAge_perm _).mem_iff.1 inside)).1
  have otherKnown := (sortByAge_perm _).mem_iff.1 (List.mem_filter.1 other).1
  exact List.inj_on_of_nodup_map distinct known otherKnown (id_eq_of_isOlder before later)

end Job

namespace Store

/-- The open jobs past their deadline, in the order in which they are given. -/
def overdue (store : Store) (now : Int64) (jobs : List Job) : List Key :=
  (jobs.filter fun job => job.isOpen && job.isExpired now store.config.expiry).map Job.id

/-- Times out jobs with one call for each, and tells for which of them the call succeeds. -/
def timeOutEach (store : Store) (now : Int64) : List Key → List Key × Store
  | [] => ([], store)
  | id :: rest =>
    match store.apply now (.timeoutJob id) with
    | (.ok _, next) =>
      let (ended, last) := next.timeOutEach now rest
      (id :: ended, last)
    | (.error _, next) => next.timeOutEach now rest

/-- The store after timeouts in one market: its desk is put back, nodes are rated, and the events
are told. -/
def fileTimeouts (store : Store) (now : Int64) (market : Key) (ended : List (Job × Event))
    (desk : Desk) : Store :=
  { store.file market desk with
    reputations := rateTimeouts store.config now ended store.reputations
    events := store.events ++ ended.map Prod.snd }

variable {store middle after : Store} {now : Int64} {market id : Key} {ids rest : List Key}
  {venue : Venue} {desk : Desk} {ended others : List (Job × Event)} {reply : Reply}
  {cause : MarketError}

theorem fileTimeouts_nil (found : store.venues.get? market = some venue) :
    store.fileTimeouts now market [] ⟨venue, store.balances⟩ = store := by
  unfold fileTimeouts
  rw [file_same found rfl, List.map_nil, List.append_nil]
  rfl

/-- Timeouts may be filed in two parts. -/
theorem fileTimeouts_append (first : Desk) :
    (store.fileTimeouts now market ended first).fileTimeouts now market others desk =
      store.fileTimeouts now market (ended ++ others) desk := by
  simp only [fileTimeouts, file, rateTimeouts, KeyMap.insert_insert, List.foldl_append,
    List.map_append, List.append_assoc]

section Calls

theorem marketOfJob_run (indexed : store.jobMarkets.get? id = some market) :
    (marketOfJob id).run store = .ok market store := by
  simp only [marketOfJob, EStateM.run_bind, EStateM.run_get, indexed, EStateM.run_pure]

theorem announce_run (store : Store) (events : List Event) :
    (announce events).run store = .ok () { store with events := store.events ++ events } := rfl

variable (found : store.venues.get? market = some venue)

include found

/-- A timeout that its market carries out is filed in the store. -/
theorem timeoutJob_of_ok (indexed : store.jobMarkets.get? id = some market) {late : Job}
    {event : Event}
    (ran : (Desk.timeoutJob id store.config.expiry now).run ⟨venue, store.balances⟩ =
      .ok (late, event) desk) :
    store.apply now (.timeoutJob id) =
      (.ok (.jobSettled late), store.fileTimeouts now market [(late, event)] desk) := by
  have worked : (timeoutJob id now).run store =
      .ok late (store.fileTimeouts now market [(late, event)] desk) := by
    unfold timeoutJob
    simp only [EStateM.run_bind, marketOfJob_run indexed, EStateM.run_get, onMarket_run, found, ran,
      noteTimeout_run, announce_run, EStateM.run_pure]
    rfl
  have performed : Operation.perform now (.timeoutJob id) = .jobSettled <$> timeoutJob id now := rfl
  exact apply_of_run_ok performed worked

theorem timeoutJob_of_error (indexed : store.jobMarkets.get? id = some market)
    (ran : (Desk.timeoutJob id store.config.expiry now).run ⟨venue, store.balances⟩ =
      .error cause desk) :
    store.apply now (.timeoutJob id) = (.error cause, store.file market desk) := by
  have failed : (timeoutJob id now).run store = .error cause (store.file market desk) := by
    unfold timeoutJob
    simp only [EStateM.run_bind, marketOfJob_run indexed, EStateM.run_get, onMarket_run, found, ran]
  have performed : Operation.perform now (.timeoutJob id) = .jobSettled <$> timeoutJob id now := rfl
  exact apply_of_run_error performed failed

/-- A sweep files the timeouts of its market all at once. -/
theorem sweep_of_run
    (ran : (Desk.sweep store.config.expiry now).run ⟨venue, store.balances⟩ = .ok ended desk) :
    store.apply now (.sweep market) =
      (.ok (.swept (ended.map fun entry => entry.1.id)),
        store.fileTimeouts now market ended desk) := by
  have worked : (sweep market now).run store =
      .ok (ended.map fun entry => entry.1.id) (store.fileTimeouts now market ended desk) := by
    unfold sweep
    simp only [EStateM.run_bind, EStateM.run_get, onMarket_run, found, ran, noteTimeouts_run,
      announce_run, EStateM.run_pure]
    rfl
  have performed : Operation.perform now (.sweep market) = .swept <$> sweep market now := rfl
  exact apply_of_run_ok performed worked

end Calls

/-- A timeout that succeeds is counted, and the next one starts where it ended. -/
theorem timeOutEach_of_ok (answer : store.apply now (.timeoutJob id) = (.ok reply, middle)) :
    store.timeOutEach now (id :: rest) =
      (id :: (middle.timeOutEach now rest).1, (middle.timeOutEach now rest).2) := by
  rw [timeOutEach, answer]

theorem timeOutEach_of_error (answer : store.apply now (.timeoutJob id) = (.error cause, middle)) :
    store.timeOutEach now (id :: rest) = middle.timeOutEach now rest := by
  rw [timeOutEach, answer]

/-- The ledger of a market runs through the jobs as the calls do. -/
theorem Sound.timeOutEach_eq (sound : store.Sound) (now : Int64)
    (found : store.venues.get? market = some venue)
    (indexed : ∀ id ∈ ids, store.jobMarkets.get? id = some market) :
    ∃ ended desk,
      (Desk.timeoutJobs store.config.expiry now ids).run ⟨venue, store.balances⟩ = .ok ended desk ∧
      store.timeOutEach now ids =
        (ended.map fun entry => entry.1.id, store.fileTimeouts now market ended desk) := by
  induction ids generalizing store venue with
  | nil => exact ⟨[], ⟨venue, store.balances⟩, rfl, by rw [fileTimeouts_nil found]; rfl⟩
  | cons id rest inductionHypothesis =>
      have here := indexed id List.mem_cons_self
      have there := fun other member => indexed other (List.mem_cons_of_mem id member)
      have outcome := Desk.timeoutJob_outcome ⟨venue, store.balances⟩
        (sound.ledgers market venue found) id store.config now
      unfold Desk.timeoutJobs
      simp only [EStateM.run_bind, Action.attempt_run]
      cases ran : (Desk.timeoutJob id store.config.expiry now).run ⟨venue, store.balances⟩ with
      | error cause left =>
          obtain ⟨-, rfl⟩ := outcome.of_error ran
          obtain ⟨ended, desk, later, each⟩ := inductionHypothesis sound found there
          have answer := timeoutJob_of_error found here ran
          rw [file_same found rfl] at answer
          rw [timeOutEach_of_error answer]
          simp only [later, EStateM.run_pure]
          exact ⟨_, desk, rfl, each⟩
      | ok settled left =>
          obtain ⟨late, event⟩ := settled
          obtain ⟨-, -, same, -⟩ := outcome.of_ok ran
          dsimp only at same
          have answer := timeoutJob_of_ok found here ran
          have next := sound.apply now (.timeoutJob id)
          rw [answer] at next
          obtain ⟨ended, desk, later, each⟩ :=
            inductionHypothesis next (KeyMap.get?_insert_self ..) there
          change (Desk.timeoutJobs store.config.expiry now rest).run left = _ at later
          simp only [later, EStateM.run_pure]
          refine ⟨_, desk, rfl, ?_⟩
          rw [timeOutEach_of_ok answer, each, fileTimeouts_append, ← same]
          rfl

/-- No two jobs of a market have one id. -/
theorem Sound.nodup_ids (sound : store.Sound) (found : store.venues.get? market = some venue) :
    (venue.jobs.values.map Job.id).Nodup := by
  rw [Venue.map_id_values fun id job filed =>
    ((sound.ledgers market venue found).filed id job filed).1]
  exact venue.jobs.keys_nodup

/-- The jobs of a market in the order of age are listed once each. -/
theorem Sound.nodup_jobsByAge (sound : store.Sound)
    (found : store.venues.get? market = some venue) : (venue.jobsByAge.map Job.id).Nodup :=
  ((Job.sortByAge_perm _).map Job.id).nodup_iff.2 (sound.nodup_ids found)

/-- The overdue jobs of a market are those of its list of jobs, in the order of the list. -/
theorem Sound.overdue_eq (sound : store.Sound) (found : store.venues.get? market = some venue) :
    store.overdue now venue.jobsByAge = venue.overdueJobs now store.config.expiry := by
  rw [overdue, Venue.jobsByAge, ← Job.sortByAge_filter (sound.nodup_ids found), Venue.overdueJobs]

/-- The overdue jobs of a market are its open jobs past their deadline. -/
theorem Sound.mem_overdue (sound : store.Sound) (found : store.venues.get? market = some venue) :
    id ∈ store.overdue now venue.jobsByAge ↔ ∃ job, store.record? market id = some job ∧
      job.isOpen = true ∧ job.isExpired now store.config.expiry = true := by
  have filed := fun id job recorded => ((sound.ledgers market venue found).filed id job recorded).1
  rw [sound.overdue_eq found, Venue.mem_overdueJobs filed, record?_of_found found]

/-- A sweep is the run of calls. -/
theorem Sound.sweep_eq (sound : store.Sound) (now : Int64)
    (found : store.venues.get? market = some venue) :
    store.apply now (.sweep market) =
      (.ok (.swept (store.timeOutEach now (store.overdue now venue.jobsByAge)).1),
        (store.timeOutEach now (store.overdue now venue.jobsByAge)).2) ∧
    ∃ next, (store.timeOutEach now (store.overdue now venue.jobsByAge)).2.venues.get? market =
      some next := by
  have indexed : ∀ id ∈ store.overdue now venue.jobsByAge,
      store.jobMarkets.get? id = some market := by
    intro id member
    obtain ⟨job, recorded, -⟩ := (sound.mem_overdue found).1 member
    exact sound.indexed_iff.2 ⟨job, recorded⟩
  obtain ⟨ended, desk, ran, each⟩ := sound.timeOutEach_eq now found indexed
  have swept : (Desk.sweep store.config.expiry now).run ⟨venue, store.balances⟩ =
      .ok ended desk := by
    unfold Desk.sweep
    simp only [EStateM.run_bind, EStateM.run_get]
    rw [← sound.overdue_eq found]
    exact ran
  rw [each]
  exact ⟨sweep_of_run found swept, desk.venue, KeyMap.get?_insert_self ..⟩

/-- The answers of a run are about its jobs, in their order. -/
theorem timeOutEach_sublist (store : Store) (now : Int64) (ids : List Key) :
    (store.timeOutEach now ids).1.Sublist ids := by
  induction ids generalizing store with
  | nil => exact .slnil
  | cons id rest inductionHypothesis =>
      unfold timeOutEach
      split
      · exact (inductionHypothesis _).cons_cons id
      · exact (inductionHypothesis _).cons id

/-- A run leaves what its first call and then the other calls leave. -/
theorem timeOutEach_cons (store : Store) (now : Int64) (id : Key) (rest : List Key) :
    (store.timeOutEach now (id :: rest)).2 =
      ((store.apply now (.timeoutJob id)).2.timeOutEach now rest).2 := by
  cases answer : store.apply now (.timeoutJob id) with
  | mk reply next =>
      cases reply with
      | ok reply => rw [timeOutEach_of_ok answer]
      | error cause => rw [timeOutEach_of_error answer]

/-- A run of calls that all fail leaves everything as it was. -/
theorem Sound.timeOutEach_of_blocked (sound : store.Sound)
    (blocked : ∀ id ∈ ids, ¬ store.Accepts now (.timeoutJob id)) :
    store.timeOutEach now ids = ([], store) := by
  induction ids with
  | nil => rfl
  | cons id rest inductionHypothesis =>
      cases answer : (store.apply now (.timeoutJob id)).1 with
      | ok reply => exact absurd ⟨reply, answer⟩ (blocked id List.mem_cons_self)
      | error cause =>
          have same := (apply_of_error now sound answer).2
          rw [timeOutEach_of_error (Prod.ext answer same)]
          exact inductionHypothesis fun other member =>
            blocked other (List.mem_cons_of_mem id member)

/-- From one store to another, nothing but settlements happened: every record stays or is closed,
no job comes in, and no balance falls. -/
structure OnlySettles (store after : Store) : Prop where
  config : after.config = store.config
  index : after.jobMarkets = store.jobMarkets
  records : ∀ market id job, store.record? market id = some job →
    after.record? market id = some job ∨
      ∃ ended, after.record? market id = some ended ∧ ended.isOpen = false
  balances : ∀ account, (store.balance account).base ≤ (after.balance account).base

theorem OnlySettles.refl (store : Store) : store.OnlySettles store :=
  ⟨rfl, rfl, fun _ _ _ recorded => .inl recorded, fun _ => Nat.le_refl _⟩

/-- Settlements one after the other are settlements. -/
theorem OnlySettles.trans (first : store.OnlySettles middle) (second : middle.OnlySettles after) :
    store.OnlySettles after where
  config := second.config.trans first.config
  index := second.index.trans first.index
  records market id job recorded := by
    obtain kept | ⟨ended, closed, final⟩ := first.records market id job recorded
    · exact second.records market id job kept
    · obtain still | again := second.records market id ended closed
      · exact .inr ⟨ended, still, final⟩
      · exact .inr again
  balances account := (first.balances account).trans (second.balances account)

end Store

namespace Desk

variable {config : Config} {now : Int64} {desk after : Desk} {event : Event}

/-- No balance falls but by a new job. -/
theorem Step.balance_le (step : Step config now desk event after) (account : Key) :
    (desk.balances.balance account).base ≤ (after.balances.balance account).base := by
  cases step with
  | nodeQueued => exact Nat.le_refl _
  | headMatched => exact Nat.le_refl _
  | nodeDelisted => exact Nat.le_refl _
  | settled job ended payee event rest total recorded settlement released credited =>
      change _ ≤ ((BalanceBook.mk (desk.balances.accounts.insert payee total)).balance account).base
      rw [BalanceBook.balance_of_insert]
      split
      · rename_i same
        rw [credited, same]
        exact Nat.le_add_right _ _
      · exact Nat.le_refl _

end Desk

namespace Store

variable {store after : Store} {now : Int64} {market id : Key} {ids : List Key} {job late : Job}
  {event : Event}

/-- No event of a market takes money from an account. -/
theorem Step.balance_le (step : Step now store (.told event) after) (account : Key) :
    (store.balance account).base ≤ (after.balance account).base := by
  cases step with
  | opened => exact Nat.le_refl _
  | traded market venue event desk found step => exact step.balance_le account

/-- A timeout settles its own job and changes no other. -/
theorem Step.onlySettles (sound : store.Sound)
    (step : Step now store (.told (late.timeoutEvent now)) after) : store.OnlySettles after where
  config := step.config
  index := step.index_of_told nofun
  records market id job recorded := by
    obtain ⟨next, found, turn⟩ := step.turn sound recorded
    generalize told : late.timeoutEvent now = event at turn
    cases turn with
    | kept => exact .inl found
    | started => cases told
    | settled ended payee event settlement => exact .inr ⟨next, found, settlement.not_isOpen⟩
  balances := step.balance_le

/-- A call to time out a job does nothing but settle. -/
theorem Sound.timeout_onlySettles (sound : store.Sound) (now : Int64) (id : Key) :
    store.OnlySettles (store.apply now (.timeoutJob id)).2 := by
  cases answer : (store.apply now (.timeoutJob id)).1 with
  | error cause =>
      rw [(apply_of_error now sound answer).2]
      exact .refl store
  | ok reply =>
      obtain ⟨changes, does, steps⟩ := steps_of_apply now sound answer
      cases does with
      | timedOut late => exact steps.single.onlySettles sound

/-- Single timeouts keep a store sound. -/
theorem Sound.timeOutEach_sound (sound : store.Sound) (now : Int64) (ids : List Key) :
    (store.timeOutEach now ids).2.Sound := by
  induction ids generalizing store with
  | nil => exact sound
  | cons id rest inductionHypothesis =>
      rw [timeOutEach_cons]
      exact inductionHypothesis (sound.apply now (.timeoutJob id))

/-- Single timeouts one after the other do nothing but settle jobs. -/
theorem Sound.timeOutEach_onlySettles (sound : store.Sound) (now : Int64) (ids : List Key) :
    store.OnlySettles (store.timeOutEach now ids).2 := by
  induction ids generalizing store with
  | nil => exact .refl store
  | cons id rest inductionHypothesis =>
      rw [timeOutEach_cons]
      exact (sound.timeout_onlySettles now id).trans
        (inductionHypothesis (sound.apply now (.timeoutJob id)))

/-- A record that is open after settlements was the same before. -/
theorem OnlySettles.record_before (settles : store.OnlySettles after) (sound : store.Sound)
    (laterSound : after.Sound) (recorded : after.record? market id = some job)
    (unsettled : job.isOpen = true) : store.record? market id = some job := by
  have indexed := laterSound.indexed_iff.2 ⟨job, recorded⟩
  rw [settles.index] at indexed
  obtain ⟨before, known⟩ := sound.indexed_iff.1 indexed
  obtain kept | ⟨ended, closed, final⟩ := settles.records market id before known
  · rw [recorded] at kept
    rw [known, kept]
  · rw [recorded] at closed
    cases closed
    rw [unsettled] at final
    cases final

/-- A job that was timed out is closed. -/
theorem Sound.not_isOpen_of_timeout (sound : store.Sound)
    (accepted : store.Accepts now (.timeoutJob id))
    (recorded : (store.apply now (.timeoutJob id)).2.record? market id = some job) :
    job.isOpen = false := by
  obtain ⟨reply, answer⟩ := accepted
  have next := sound.apply now (.timeoutJob id)
  obtain ⟨changes, does, steps⟩ := steps_of_apply now sound answer
  cases does with
  | timedOut late =>
      obtain ⟨place, known, ended, payee, -, settlement, closed, -⟩ := steps.single.settlement rfl
      obtain ⟨-, rfl⟩ := next.market_unique recorded closed
      exact settlement.not_isOpen

/-- A job past its deadline that is still open after a run over it has a client without room for
the price: there was none when its turn came, and no balance fell since. -/
theorem Sound.timeOutEach_complete (sound : store.Sound) (member : id ∈ ids)
    (recorded : (store.timeOutEach now ids).2.record? market id = some job)
    (late : job.isExpired now store.config.expiry = true) :
    ¬ (store.timeOutEach now ids).2.HasRoom job.client job.price := by
  induction ids generalizing store with
  | nil => cases member
  | cons first rest inductionHypothesis =>
      have settles := sound.timeout_onlySettles now first
      have next := sound.apply now (.timeoutJob first)
      rw [timeOutEach_cons] at recorded ⊢
      obtain rfl | later := List.mem_cons.1 member
      · have unsettled := Job.isOpen_of_isExpired late
        have others := next.timeOutEach_onlySettles now rest
        have last := next.timeOutEach_sound now rest
        have middle := others.record_before next last recorded unsettled
        have known := settles.record_before sound next middle unsettled
        intro room
        -- balances only grow in a sweep, so the room at its end was there for this call
        have roomBefore : store.HasRoom job.client job.price :=
          (Nat.add_le_add_right ((settles.trans others).balances job.client) _).trans room
        have accepted := (sound.accepts_timeout_iff known).2 ⟨late, roomBefore⟩
        rw [sound.not_isOpen_of_timeout accepted middle] at unsettled
        cases unsettled
      · rw [← settles.config] at late
        exact inductionHypothesis next later recorded late

/-- A sweep of a market with the given jobs comes to one call for each job past its deadline, oldest
first. It tells the jobs whose calls succeed, each once, leaves no job behind that could have been
timed out, and a second sweep at the same time finds nothing to do. -/
structure SweepsEach (store : Store) (now : Int64) (market : Key) (jobs : List Job) : Prop where
  ordered : jobs.Pairwise fun left right => left.created < right.created ∨
    left.created = right.created ∧ left.id.number < right.id.number
  swept : store.apply now (.sweep market) =
    (.ok (.swept (store.timeOutEach now (store.overdue now jobs)).1),
      (store.timeOutEach now (store.overdue now jobs)).2)
  once : (store.timeOutEach now (store.overdue now jobs)).1.Nodup
  complete : ∀ id job, (store.apply now (.sweep market)).2.record? market id = some job →
    job.isOpen = true → job.isExpired now store.config.expiry = true →
    0xffffffffffffffff <
      ((store.apply now (.sweep market)).2.balance job.client).base + job.price.base
  again : (store.apply now (.sweep market)).2.apply now (.sweep market) =
    (.ok (.swept []), (store.apply now (.sweep market)).2)

/-- Jobs of a market are listed by their times and ids, and no two are alike in both. -/
theorem Sound.jobsByAge_pairwise (sound : store.Sound) {venue : Venue}
    (found : store.venues.get? market = some venue) :
    venue.jobsByAge.Pairwise fun left right => left.created < right.created ∨
      left.created = right.created ∧ left.id.number < right.id.number := by
  have different := List.pairwise_map.1 (sound.nodup_jobsByAge found)
  refine ((Job.sortByAge_pairwise _).and different).imp ?_
  rintro left right ⟨before, other⟩
  obtain earlier | ⟨same, least⟩ := Job.isOlder_iff.1 before
  · exact .inl earlier
  · refine .inr ⟨same, Nat.lt_of_le_of_ne least ?_⟩
    intro alike
    exact other (Key.ext alike)

/-- A sweep changes nothing where no client of an overdue job has room for its price. -/
theorem Sound.sweep_of_blocked (sound : store.Sound) {venue : Venue}
    (found : store.venues.get? market = some venue)
    (blocked : ∀ id job, store.record? market id = some job → job.isOpen = true →
      job.isExpired now store.config.expiry = true → ¬ store.HasRoom job.client job.price) :
    store.apply now (.sweep market) = (.ok (.swept []), store) := by
  rw [(sound.sweep_eq now found).1, sound.timeOutEach_of_blocked]
  intro id member accepted
  obtain ⟨job, recorded, unsettled, late⟩ := (sound.mem_overdue found).1 member
  exact blocked id job recorded unsettled late ((sound.accepts_timeout_iff recorded).1 accepted).2

/-- A sweep of a sound store is the run of the single timeouts of its overdue jobs. -/
theorem Sound.sweepsEach (sound : store.Sound) {venue : Venue}
    (found : store.venues.get? market = some venue) :
    store.SweepsEach now market venue.jobsByAge := by
  obtain ⟨swept, next, filed⟩ := sound.sweep_eq now found
  have settles := sound.timeOutEach_onlySettles now (store.overdue now venue.jobsByAge)
  have laterSound := sound.timeOutEach_sound now (store.overdue now venue.jobsByAge)
  have blocked : ∀ id job,
      (store.timeOutEach now (store.overdue now venue.jobsByAge)).2.record? market id = some job →
      job.isOpen = true → job.isExpired now store.config.expiry = true →
      ¬ (store.timeOutEach now (store.overdue now venue.jobsByAge)).2.HasRoom job.client
        job.price := by
    intro id job recorded unsettled late
    have known := settles.record_before sound laterSound recorded unsettled
    have member := (sound.mem_overdue found).2 ⟨job, known, unsettled, late⟩
    exact sound.timeOutEach_complete member recorded late
  refine
    { ordered := sound.jobsByAge_pairwise found
      swept := swept
      once := ?_
      complete := ?_
      again := ?_ }
  · have chosen : (store.overdue now venue.jobsByAge).Sublist (venue.jobsByAge.map Job.id) :=
      List.filter_sublist.map Job.id
    exact ((sound.nodup_jobsByAge found).sublist chosen).sublist (timeOutEach_sublist store now _)
  · rw [swept]
    intro id job recorded unsettled late
    exact Nat.lt_of_not_le (blocked id job recorded unsettled late)
  · rw [swept]
    apply laterSound.sweep_of_blocked filed
    rw [settles.config]
    exact blocked

/-- Whatever has been done with a store, new or restored: sweeping a market is timing out each of
its jobs past its deadline in the order of the list of jobs. -/
theorem sweep_times_out_each {start : Store} (initial : start.Initial) (moves : List Move)
    (now : Int64) (market : Key) (jobs : List Job)
    (listed : (start.after moves).jobsOf market = .ok jobs) :
    (start.after moves).SweepsEach now market jobs := by
  obtain ⟨venue, found, rfl⟩ := jobsOf_eq_ok.1 listed
  exact (initial.sound.after moves).sweepsEach found

/-- A history in which two jobs wait, and the client of the older one has filled its own balance. -/
def neighbours : List Move :=
  hoard ++
    [.perform 5 (.deposit (Key.ofBytes [5]) (.ofTokens 3)),
     .perform 6 (.createJob waitingJob.market (Key.ofBytes [5])
       ⟨Key.ofBytes [6], ⟨Word.ofNumber 7⟩, 8, .any⟩)]

/-- Of two late jobs the sweep ends the one whose client has room for the price. -/
theorem sweep_times_out_each_neighbours :
    (empty {}).Initial ∧
    ∃ jobs, ((empty {}).after neighbours).jobsOf waitingJob.market = .ok jobs ∧
      jobs.map Job.id = [waitingJob.id, Key.ofBytes [6]] ∧
      ((empty {}).after neighbours).SweepsEach 100 waitingJob.market jobs ∧
      (((empty {}).after neighbours).apply 100 (.sweep waitingJob.market)).1 =
        .ok (.swept [Key.ofBytes [6]]) := by
  have initial : (empty {}).Initial := .opened {} rfl
  have order : (((empty {}).after neighbours).jobsOf waitingJob.market).toOption.map
      (List.map Job.id) = some [waitingJob.id, Key.ofBytes [6]] := by
    decide +kernel
  have answer : (((empty {}).after neighbours).apply 100 (.sweep waitingJob.market)).1 =
      .ok (.swept [Key.ofBytes [6]]) := by
    decide +kernel
  cases listed : ((empty {}).after neighbours).jobsOf waitingJob.market with
  | error cause =>
      rw [listed] at order
      cases order
  | ok jobs =>
      rw [listed] at order
      exact ⟨initial, jobs, rfl, Option.some.inj order,
        sweep_times_out_each initial neighbours 100 _ jobs listed, answer⟩

end Store

end ComputeMarket
