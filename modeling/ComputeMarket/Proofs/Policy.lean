import ComputeMarket.Proofs.Listings
import ComputeMarket.Proofs.Lifecycle
import ComputeMarket.Proofs.Store.Acceptance

/-
This file proves what becomes of the policy of markets: every operation upholds it, and a store that
comes back from a snapshot has as much of it as the snapshot has.
-/

namespace ComputeMarket

/-- The policy of a market: it could have opened with its terms, it has counted all jobs that are on
record, as far as the count goes, and every completed job has a result. -/
structure Venue.Lawful (venue : Venue) : Prop where
  terms : venue.market.params.validate = .ok ()
  counted : min venue.jobs.size 0xffffffffffffffff ≤ venue.market.jobCount.value
  delivered : ∀ id job, venue.jobs.get? id = some job → job.state = .completed →
    job.result ≠ .zero

/-- The same policy, of the record of a market. -/
structure MarketRecord.Lawful (record : MarketRecord) : Prop where
  terms : record.market.params.validate = .ok ()
  counted : min record.jobs.length 0xffffffffffffffff ≤ record.market.jobCount.value
  delivered : ∀ job ∈ record.jobs, job.state = .completed → job.result ≠ .zero

/-- A job that comes to be completed is given a result. -/
theorem Job.Turn.delivered {config : Config} {now : Int64} {seen : Change} {job later : Job}
    (turn : job.Turn config now seen later)
    (before : job.state = .completed → job.result ≠ .zero) (completed : later.state = .completed) :
    later.result ≠ .zero := by
  cases turn with
  | kept => exact before completed
  | started node queued => cases completed
  | settled ended payee event settlement =>
      cases settlement with
      | completed node result running bound delivered => exact delivered
      | stopped => cases completed
      | timedOut => cases completed

namespace Desk

variable {config : Config} {now : Int64} {desk after : Desk} {event : Event}

/-- No step without a new job changes how many jobs are on record. -/
theorem Step.size_jobs (step : Step config now desk event after) :
    after.venue.jobs.size = desk.venue.jobs.size := by
  cases step with
  | nodeQueued => rfl
  | nodeDelisted => rfl
  | headMatched node waiting queue submitted recorded => exact KeyMap.size_insert_of_get? _ recorded
  | settled job ended payee event rest total recorded => exact KeyMap.size_insert_of_get? _ recorded

/-- Every step upholds the policy of a market. -/
theorem Step.lawful (sound : desk.venue.Sound) (lawful : desk.venue.Lawful)
    (step : Step config now desk event after) : after.venue.Lawful where
  terms := by
    rw [step.same_terms.2.2.2]
    exact lawful.terms
  counted := by
    rw [step.size_jobs]
    exact Nat.le_trans lawful.counted step.endures.jobCount
  delivered id next found := by
    obtain ⟨job, recorded, turn⟩ := step.origin sound found
    exact turn.delivered (lawful.delivered id job recorded)

/-- A new job is counted, and it is not completed. -/
theorem Entry.lawful {client : Key} {request : JobRequest} {capacity : Count}
    {admission : JobAdmission} (lawful : desk.venue.Lawful)
    (entry : Entry client request capacity now desk admission event after) :
    after.venue.Lawful where
  terms := by
    rw [entry.same_terms.2.2.2]
    exact lawful.terms
  counted := by
    have more (job : Job) (fresh : desk.venue.jobs.get? request.id = none) :
        min (desk.venue.jobs.insert request.id job).size 0xffffffffffffffff ≤
          desk.venue.market.jobCount.next.value := by
      have before := lawful.counted
      rw [KeyMap.size_insert_new job fresh, Count.next, Count.value_ofNat]
      omega
    cases entry with
    | queued place queue rest total admissible => exact more _ admissible.fresh
    | matched node queue rest total admissible => exact more _ admissible.fresh
  delivered := by
    cases entry with
    | queued =>
        refine KeyMap.forall_get?_insert lawful.delivered ?_
        intro completed
        cases completed
    | matched =>
        refine KeyMap.forall_get?_insert lawful.delivered ?_
        intro completed
        cases completed

end Desk

namespace Store

/-- Every market upholds its policy. -/
def Lawful (store : Store) : Prop :=
  ∀ market venue, store.venues.get? market = some venue → venue.Lawful

variable {store after : Store} {now : Int64} {seen : Change} {market : Key} {venue : Venue}

theorem Lawful.insert (lawful : store.Lawful) (new : venue.Lawful)
    (venues : after.venues = store.venues.insert market venue) : after.Lawful := by
  unfold Store.Lawful
  rw [venues]
  exact KeyMap.forall_get?_insert lawful new

/-- A new market with valid terms keeps the policy. -/
theorem lawful_new {params : MarketParams} (valid : params.validate = .ok ()) (id authority : Key) :
    (Venue.new id authority params).Lawful where
  terms := valid
  counted := Nat.min_le_left 0 _
  delivered job record found := by cases found

/-- Every change of a store upholds the policy of all markets. -/
theorem Step.lawful (sound : store.Sound) (lawful : store.Lawful)
    (step : Step now store seen after) : after.Lawful := by
  cases step with
  | opened id authority params fresh valid => exact lawful.insert (lawful_new valid id authority) rfl
  | entered market client request venue admission event desk found unused entry =>
      exact lawful.insert (entry.lawful (lawful market venue found)) rfl
  | traded market venue event desk found step =>
      exact lawful.insert (step.lawful (sound.ledgers market venue found) (lawful market venue found)) rfl
  | paid => exact lawful

/-- Whatever is done with a store, it keeps the policy of its markets. -/
theorem Sound.lawful_after (sound : store.Sound) (lawful : store.Lawful) (moves : List Move) :
    (store.after moves).Lawful := by
  apply sound.invariant_after Lawful lawful
  · intro store lawful
    exact lawful
  · intro now store after seen sound lawful step
    exact step.lawful sound lawful

/-- A new store has no market that could break the policy. -/
theorem lawful_of_new {config : Config} (opened : new config = .ok store) : store.Lawful := by
  obtain ⟨-, same⟩ := Guard.unit_bind_eq_ok.1 opened
  cases same
  intro market venue found
  cases found

end Store

/-- The ledger made of a record keeps the policy exactly if the record does. -/
theorem MarketRecord.lawful_venue_iff {record : MarketRecord}
    (distinct : (record.jobs.map Job.id).Nodup) : record.venue.Lawful ↔ record.Lawful := by
  have size : record.venue.jobs.size = record.jobs.length := by
    rw [← KeyMap.length_values]
    exact (values_venue distinct).length_eq
  have filed {id : Key} {job : Job} : record.venue.jobs.get? id = some job ↔
      job ∈ record.jobs ∧ job.id = id := get?_venue distinct
  constructor
  · rintro ⟨terms, counted, delivered⟩
    rw [size] at counted
    exact ⟨terms, counted, fun job member => delivered job.id job (filed.2 ⟨member, rfl⟩)⟩
  · rintro ⟨terms, counted, delivered⟩
    refine ⟨terms, ?_, fun id job found => delivered job (filed.1 found).1⟩
    rw [size]
    exact counted

/-- The record of a market that upholds its policy upholds it. -/
theorem Venue.Lawful.toRecord {venue : Venue} (sound : venue.Sound) (lawful : venue.Lawful) :
    venue.toRecord.Lawful where
  terms := lawful.terms
  counted := by
    have size : venue.jobsByAge.length = venue.jobs.size := by
      rw [← KeyMap.length_values]
      exact (Job.sortByAge_perm _).length_eq
    change min venue.jobsByAge.length _ ≤ _
    rw [size]
    exact lawful.counted
  delivered job member := lawful.delivered job.id job ((Venue.mem_jobsByAge sound job).1 member)

namespace Store

variable {store : Store} {snapshot : Snapshot} {config : Config} {market : Key} {venue : Venue}

/-- The markets that come back from a snapshot are those on record. -/
theorem get?_restored (accepted : restore snapshot config = .ok store) :
    store.venues.get? market = some venue ↔
      ∃ record ∈ snapshot.markets, record.market.id = market ∧ record.venue = venue := by
  obtain ⟨-, consistent, rfl⟩ := restore_eq_ok.1 accepted
  change ((empty config).adoptAll snapshot.markets).venues.get? market = some venue ↔ _
  have distinct : ((snapshot.markets.map fun record => (record.market.id, record.venue)).map
      Prod.fst).Nodup := by
    rw [List.map_map]
    exact consistent.markets
  rw [venues_adoptAll, KeyMap.get?_insertAll distinct fun _ _ => rfl]
  simp [empty]

/-- A restored store keeps the policy exactly if the records of the snapshot do. -/
theorem lawful_restored_iff (accepted : restore snapshot config = .ok store) :
    store.Lawful ↔ ∀ record ∈ snapshot.markets, record.Lawful := by
  have consistent := (restore_eq_ok.1 accepted).2.1
  have distinct : ∀ record ∈ snapshot.markets, (record.jobs.map Job.id).Nodup :=
    (List.nodup_flatMap.1 consistent.jobs).1
  constructor
  · intro lawful record member
    rw [← MarketRecord.lawful_venue_iff (distinct record member)]
    exact lawful record.market.id record.venue ((get?_restored accepted).2 ⟨record, member, rfl, rfl⟩)
  · intro lawful market venue found
    obtain ⟨record, member, -, rfl⟩ := (get?_restored accepted).1 found
    exact (MarketRecord.lawful_venue_iff (distinct record member)).2 (lawful record member)

/-- A store that keeps the policy is recorded in snapshots that keep it. -/
theorem Lawful.records (sound : store.Sound) (lawful : store.Lawful) :
    ∀ record ∈ store.snapshot.markets, record.Lawful := by
  intro record member
  obtain ⟨venue, inside, rfl⟩ := List.mem_map.1 member
  obtain ⟨market, found⟩ := KeyMap.mem_values.1 inside
  exact (lawful market venue found).toRecord (sound.ledgers market venue found)

end Store

namespace MarketRecord

/-- The record with other terms, another count of jobs and other results. -/
def reissue (terms : MarketParams) (count : Count) (results : Job → Digest)
    (record : MarketRecord) : MarketRecord :=
  { record with
    market := { record.market with params := terms, jobCount := count }
    jobs := record.jobs.map fun job => { job with result := results job } }

/-- No part of the policy is needed for the parts of a record to agree. -/
theorem Consistent.reissue {record : MarketRecord} (consistent : record.Consistent)
    (terms : MarketParams) (count : Count) (results : Job → Digest) :
    (record.reissue terms count results).Consistent where
  filed := List.forall_mem_map.2 consistent.filed
  vault := consistent.vault
  queue := consistent.queue
  waiting id := by
    have waits := consistent.waiting id
    simpa [MarketRecord.reissue] using waits
  free := List.forall_mem_map.2 consistent.free
  bound := List.forall_mem_map.2 consistent.bound
  escrowed := by
    rw [MarketRecord.reissue, List.filter_map, List.map_map]
    exact consistent.escrowed

end MarketRecord

/-- The snapshot with other terms, counts of jobs and results. -/
def Snapshot.reissue (terms : Key → MarketParams) (counts : Key → Count) (results : Job → Digest)
    (snapshot : Snapshot) : Snapshot :=
  { snapshot with
    markets := snapshot.markets.map fun record =>
      record.reissue (terms record.market.id) (counts record.market.id) results }

/-- Terms, counts and results may be replaced, and a snapshot stays as consistent as it was. -/
theorem Snapshot.Consistent.reissue {snapshot : Snapshot} (consistent : snapshot.Consistent)
    (terms : Key → MarketParams) (counts : Key → Count) (results : Job → Digest) :
    (snapshot.reissue terms counts results).Consistent where
  version := consistent.version
  markets := by
    rw [Snapshot.reissue, List.map_map]
    exact consistent.markets
  jobs := by
    have distinct := consistent.jobs
    simpa [Snapshot.reissue, MarketRecord.reissue, List.flatMap_map, Function.comp_def] using distinct
  records := List.forall_mem_map.2 fun record member =>
    (consistent.records record member).reissue _ _ results

namespace Store

variable {snapshot : Snapshot} {config : Config} {store : Store}

/-- A store that comes back from a snapshot upholds the policy of its markets exactly if the snapshot
does, and then it goes on to uphold it. What has been done with a store that started empty upholds
it, and so does every snapshot of that. But a snapshot is not refused for its policy: with any other
terms, counts of jobs and results it is accepted as well. -/
theorem policy_as_recorded (accepted : restore snapshot config = .ok store) :
    (store.Lawful ↔ ∀ record ∈ snapshot.markets, record.Lawful) ∧
    (store.Lawful → ∀ moves, (store.after moves).Lawful) ∧
    (∀ origin start moves, new origin = .ok start →
      (start.after moves).Lawful ∧ (snapshot = (start.after moves).snapshot → store.Lawful)) ∧
    ∀ terms counts results, ∃ other,
      restore (snapshot.reissue terms counts results) config = .ok other := by
  have asRecorded := lawful_restored_iff accepted
  refine ⟨asRecorded, (sound_of_restore accepted).lawful_after, ?_, ?_⟩
  · intro origin start moves opened
    have startSound := sound_of_new opened
    have lawful := startSound.lawful_after (lawful_of_new opened) moves
    refine ⟨lawful, ?_⟩
    rintro rfl
    exact asRecorded.2 (lawful.records (startSound.after moves))
  · intro terms counts results
    obtain ⟨room, consistent, -⟩ := restore_eq_ok.1 accepted
    exact ⟨_, restore_eq_ok.2 ⟨room, consistent.reissue terms counts results, rfl⟩⟩

theorem policy_as_recorded_trade :
    ∃ store, restore ((empty {}).after trade).snapshot {} = .ok store ∧ store.Lawful ∧
      ∀ moves, (store.after moves).Lawful := by
  have opened : new {} = .ok (empty {}) := rfl
  have sound := (sound_of_new opened).after trade
  have configured : ((empty {}).after trade).config = {} := (sound_of_new opened).config_after trade
  have restorable : ∀ config, ((empty {}).after trade).config = config →
      ∃ store, restore ((empty {}).after trade).snapshot config = .ok store := by
    rintro _ rfl
    exact ⟨_, restore_snapshot sound⟩
  obtain ⟨store, accepted⟩ := restorable {} configured
  obtain ⟨-, kept, recorded, -⟩ := policy_as_recorded accepted
  have lawful := (recorded {} (empty {}) trade opened).2 rfl
  exact ⟨store, accepted, lawful, kept lawful⟩

/-- A job that was completed without a result. -/
def freeJob : Job :=
  { Job.ofRequest ⟨Key.ofBytes [4], ⟨Word.ofNumber 5⟩, 8, .any⟩ (Key.ofBytes [1]) (Key.ofBytes [2])
      .zero 0 3 with
    node := some (Key.ofBytes [3]), state := .completed, started := 9, ended := 40 }

/-- A market that is free, whose jobs are late at once, and that has not counted its job. -/
def freeVenue : Venue :=
  { Venue.new (Key.ofBytes [1]) (Key.ofBytes [9]) ⟨.zero, 0, .zero⟩ with
    jobs := KeyMap.empty.insert freeJob.id freeJob }

/-- A store with one market, which could not have opened in it. -/
def giveaway : Store :=
  { empty {} with
    venues := KeyMap.empty.insert freeVenue.market.id freeVenue
    jobMarkets := KeyMap.empty.insert freeJob.id freeVenue.market.id }

/-- A store comes back from a snapshot that upholds no part of the policy. -/
theorem lawless_market_restored :
    restore giveaway.snapshot {} = .ok giveaway ∧
    giveaway.venues.get? freeVenue.market.id = some freeVenue ∧
    freeVenue.market.params.price = .zero ∧ freeVenue.market.params.timeout = 0 ∧
    freeVenue.market.params.validate ≠ .ok () ∧
    freeVenue.market.jobCount.value < freeVenue.jobs.size ∧
    freeVenue.jobs.get? freeJob.id = some freeJob ∧ freeJob.state = .completed ∧
    freeJob.result = .zero := by
  decide +kernel

end Store

end ComputeMarket
