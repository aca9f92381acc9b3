import ComputeMarket.Proofs.Store.History

/-
This file proves that the parts of a store agree whatever has been done with it, and that an
operation that fails leaves it exactly as it was.
-/

namespace ComputeMarket

/-- The ledger of a market agrees with itself, field by field. -/
structure Venue.Consistent (market : Key) (venue : Venue) : Prop where
  named : venue.market.id = market ∧ venue.market.vault = Vault.addressOf market ∧
    venue.vault.address = Vault.addressOf market
  formed : venue.market.queue.isWellFormed = true
  waiting : ∀ id, id ∈ venue.market.queue.entriesOf .job ↔
    ∃ job, venue.jobs.get? id = some job ∧ job.state = .queued
  free : ∀ id job, venue.jobs.get? id = some job →
    job.state = .queued ∨ job.state = .stopped → job.node = none
  bound : ∀ id job, venue.jobs.get? id = some job →
    job.state = .running ∨ job.state = .completed → ∃ node, job.node = some node
  escrowed : venue.vault.balance.base =
    ((venue.jobs.values.filter fun job => job.state = .queued ∨ job.state = .running).map
      fun job => job.price.base).sum
  filed : ∀ id job, venue.jobs.get? id = some job → job.id = id ∧ job.market = market

namespace Store

/-- Every ledger passes its audit, and the index and the queries agree with the ledgers. -/
structure Consistent (store : Store) : Prop where
  audited : ∀ market, store.venues.contains market = true → store.audit market = .ok ()
  ledgers : ∀ market venue, store.venues.get? market = some venue → venue.Consistent market
  indexed : ∀ job market, store.jobMarkets.get? job = some market ↔
    ∃ venue record, store.venues.get? market = some venue ∧ venue.jobs.get? job = some record ∧
      record.id = job ∧ record.market = market
  single : ∀ job first second venue other, store.venues.get? first = some venue →
    store.venues.get? second = some other → venue.jobs.contains job = true →
    other.jobs.contains job = true → first = second
  answered : ∀ id job, store.job? id = some job ↔
    ∃ market jobs, store.jobsOf market = .ok jobs ∧ job ∈ jobs ∧ job.id = id

variable {store : Store}

/-- The jobs of an open market are listed in the order of age. -/
theorem jobsOf_eq_ok {market : Key} {jobs : List Job} :
    store.jobsOf market = .ok jobs ↔
      ∃ venue, store.venues.get? market = some venue ∧ jobs = venue.jobsByAge := by
  unfold jobsOf venue?
  cases store.venues.get? market with
  | none => simp [Except.map]
  | some venue => simp [Except.map, eq_comm]

end Store

/-- A sound ledger, field by field. -/
theorem Venue.Sound.consistent {venue : Venue} (sound : venue.Sound) :
    venue.Consistent venue.market.id where
  named := ⟨rfl, sound.named, sound.vaultNamed.trans sound.named⟩
  formed := sound.formed
  waiting := sound.waiting
  free id job found := (nodeAgrees_iff.1 (sound.bound id job found)).1
  bound id job found state :=
    Option.ne_none_iff_exists'.1 ((nodeAgrees_iff.1 (sound.bound id job found)).2 state)
  escrowed := by
    have unsettled : (fun job : Job => decide (job.state = .queued ∨ job.state = .running)) =
        Job.isOpen := by
      funext job
      rw [Bool.eq_iff_iff, decide_eq_true_iff]
      exact JobState.isOpen_iff.symm
    rw [unsettled, sum_filter_isOpen]
    exact sound.escrowed.symm
  filed := sound.filed

namespace Store

variable {store : Store}

/-- The index leads to the records, and every record is filed under its id and its market. -/
theorem Sound.indexed_iff_recorded (sound : store.Sound) (job market : Key) :
    store.jobMarkets.get? job = some market ↔
      ∃ venue record, store.venues.get? market = some venue ∧ venue.jobs.get? job = some record ∧
        record.id = job ∧ record.market = market := by
  rw [sound.indexed]
  constructor
  · rintro ⟨venue, found, known⟩
    obtain ⟨record, recorded⟩ := KeyMap.contains_iff_exists.1 known
    obtain ⟨sameId, sameMarket⟩ := (sound.ledgers market venue found).filed job record recorded
    exact ⟨venue, record, found, recorded, sameId,
      sameMarket.trans (sound.named market venue found)⟩
  · rintro ⟨venue, record, found, recorded, -, -⟩
    exact ⟨venue, found, KeyMap.contains_iff_exists.2 ⟨record, recorded⟩⟩

/-- The job that is found under an id is the one that some market lists under it. -/
theorem Sound.job?_eq_some_iff_listed (sound : store.Sound) {id : Key} {job : Job} :
    store.job? id = some job ↔
      ∃ market jobs, store.jobsOf market = .ok jobs ∧ job ∈ jobs ∧ job.id = id := by
  constructor
  · intro answer
    unfold job? at answer
    obtain ⟨market, -, answer⟩ := Option.bind_eq_some_iff.1 answer
    obtain ⟨venue, found, recorded⟩ := Option.bind_eq_some_iff.1 answer
    have same := ((sound.ledgers market venue found).filed id job recorded).1
    refine ⟨market, venue.jobsByAge, jobsOf_eq_ok.2 ⟨venue, found, rfl⟩, ?_, same⟩
    rw [Venue.mem_jobsByAge (sound.ledgers market venue found), same]
    exact recorded
  · rintro ⟨market, jobs, listing, member, same⟩
    obtain ⟨venue, found, ordered⟩ := jobsOf_eq_ok.1 listing
    subst same ordered
    have recorded := (Venue.mem_jobsByAge (sound.ledgers market venue found) job).1 member
    have entered := (sound.index_iff found job.id).2 (KeyMap.contains_iff_exists.2 ⟨job, recorded⟩)
    unfold job?
    rw [entered]
    change (store.venues.get? market >>= fun venue => venue.jobs.get? job.id) = some job
    rw [found]
    exact recorded

/-- The parts of a sound store agree. -/
theorem Sound.consistent (sound : store.Sound) : store.Consistent where
  audited market known := by
    obtain ⟨venue, found⟩ := KeyMap.contains_iff_exists.1 known
    have ledger := sound.ledgers market venue found
    unfold audit venue?
    rw [found]
    exact (Venue.audit_eq_ok_iff_sound fun id job held => (ledger.filed id job held).1).2 ledger
  ledgers market venue found := by
    have named := sound.named market venue found
    have agrees := (sound.ledgers market venue found).consistent
    rw [named] at agrees
    exact agrees
  indexed := sound.indexed_iff_recorded
  single job first second venue other found otherFound held otherHeld := by
    have one := (sound.index_iff found job).2 held
    have two := (sound.index_iff otherFound job).2 otherHeld
    rw [one, Option.some.injEq] at two
    exact two
  answered _ _ := sound.job?_eq_some_iff_listed

/-- Whatever has been done with a store, its ledgers, its index and its answers agree. -/
theorem consistent_after {start : Store} (initial : start.Initial) (moves : List Move) :
    (start.after moves).Consistent :=
  (initial.sound.after moves).consistent

theorem consistent_after_trade :
    (empty {}).Initial ∧ ((empty {}).after trade).Consistent :=
  ⟨.opened {} rfl, consistent_after (.opened {} rfl) trade⟩

/-- An operation that fails leaves the store exactly as it was, whatever was done before. -/
theorem unchanged_of_failure {start : Store} (initial : start.Initial) (moves : List Move)
    (now : Int64) (operation : Operation) (cause : MarketError)
    (failed : ((start.after moves).apply now operation).1 = .error cause) :
    ((start.after moves).apply now operation).2 = start.after moves :=
  (apply_of_error now (initial.sound.after moves) failed).2

/-- A node that does not wait is not withdrawn, and nothing changes. -/
theorem unchanged_of_unlisted_node :
    (((empty {}).after trade).apply 50
        (.delistNode (Market.idOf (Key.ofBytes [1]) 0) (Key.ofBytes [3]))).1 =
      .error (.nodeNotQueued (Key.ofBytes [3])) ∧
    (((empty {}).after trade).apply 50
        (.delistNode (Market.idOf (Key.ofBytes [1]) 0) (Key.ofBytes [3]))).2 =
      (empty {}).after trade :=
  have refused : (((empty {}).after trade).apply 50
      (.delistNode (Market.idOf (Key.ofBytes [1]) 0) (Key.ofBytes [3]))).1 =
      .error (.nodeNotQueued (Key.ofBytes [3])) := by decide +kernel
  ⟨refused, unchanged_of_failure (.opened {} rfl) trade 50 _ _ refused⟩

end Store

end ComputeMarket
