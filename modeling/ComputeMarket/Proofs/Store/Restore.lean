import ComputeMarket.Snapshot
import ComputeMarket.Proofs.Store.Outcome

/-
This file proves that a store that comes back from a snapshot is sound, and that the snapshot of
a sound store gives the store back.
-/

namespace ComputeMarket

namespace Venue

/-- Jobs are filed exactly when they name the market and have distinct free ids. -/
theorem fileJobs_eq_ok {market : Key} {jobs : List Job} {filed result : KeyMap Job} :
    fileJobs market jobs filed = .ok result ↔
      (∀ job ∈ jobs, job.market = market) ∧ (jobs.map Job.id).Nodup ∧
        (∀ id ∈ jobs.map Job.id, filed.get? id = none) ∧
        result = filed.insertAll (jobs.map fun job => (job.id, job)) := by
  induction jobs generalizing filed with
  | nil =>
      unfold fileJobs
      rw [Except.ok.injEq]
      simp [KeyMap.insertAll, eq_comm]
  | cons first rest inductionHypothesis =>
      unfold fileJobs
      by_cases foreign : first.market ≠ market
      · rw [if_pos foreign]
        simp [foreign]
      rw [if_neg foreign]
      rw [not_ne_iff] at foreign
      rw [List.forall_mem_cons, List.map_cons, List.forall_mem_cons, List.nodup_cons]
      cases known : filed.contains first.id with
      | true =>
          rw [if_pos rfl]
          obtain ⟨job, found⟩ := KeyMap.contains_iff_exists.1 known
          simp [found]
      | false =>
          have free := KeyMap.contains_eq_false.1 known
          rw [if_neg Bool.false_ne_true, inductionHypothesis, KeyMap.free_insert_iff]
          simp only [foreign, free, true_and]
          constructor
          · intro accepted
            obtain ⟨named, distinct, ⟨new, others⟩, same⟩ := accepted
            exact ⟨named, ⟨new, distinct⟩, others, same⟩
          · intro accepted
            obtain ⟨named, ⟨new, distinct⟩, others, same⟩ := accepted
            exact ⟨named, distinct, ⟨new, others⟩, same⟩

/-- The records of jobs with distinct ids are filed under their ids. -/
theorem get?_filed {jobs : List Job} (distinct : (jobs.map Job.id).Nodup) (id : Key) (job : Job) :
    (KeyMap.empty.insertAll (jobs.map fun job => (job.id, job))).get? id = some job ↔
      job ∈ jobs ∧ job.id = id := by
  have names : (jobs.map fun job => (job.id, job)).map Prod.fst = jobs.map Job.id := by
    rw [List.map_map]
    rfl
  rw [← names] at distinct
  rw [KeyMap.get?_insertAll distinct fun _ _ => rfl, KeyMap.get?_empty, List.mem_map]
  simp only [reduceCtorEq, or_false, Prod.mk.injEq]
  constructor
  · intro filed
    obtain ⟨known, member, same, exact⟩ := filed
    subst exact
    exact ⟨member, same⟩
  · intro filed
    exact ⟨job, filed.1, filed.2, rfl⟩

/-- A ledger that comes back from a record is sound and has the market of the record. -/
theorem sound_of_ofRecord {record : MarketRecord} {venue : Venue}
    (accepted : ofRecord record = .ok venue) : venue.market = record.market ∧ venue.Sound := by
  unfold ofRecord at accepted
  obtain ⟨jobs, filed, checked⟩ := Guard.bind_eq_ok.1 accepted
  obtain ⟨audited, same⟩ := Guard.unit_bind_eq_ok.1 checked
  obtain ⟨named, distinct, free, exact⟩ := fileJobs_eq_ok.1 filed
  cases same
  refine ⟨rfl, (audit_eq_ok_iff_sound ?_).1 audited⟩
  intro id job found
  change jobs.get? id = some job at found
  rw [exact] at found
  exact ((get?_filed distinct id job).1 found).2

/-- The jobs in the order of age are the records of the ledger. -/
theorem mem_jobsByAge {venue : Venue} (sound : venue.Sound) (job : Job) :
    job ∈ venue.jobsByAge ↔ venue.jobs.get? job.id = some job := by
  unfold jobsByAge
  rw [(Job.sortByAge_perm venue.jobs.values).mem_iff, KeyMap.mem_values]
  constructor
  · intro filed
    obtain ⟨id, found⟩ := filed
    rw [(sound.filed id job found).1]
    exact found
  · intro found
    exact ⟨job.id, found⟩

/-- The record of a sound ledger gives the ledger back. -/
theorem ofRecord_toRecord {venue : Venue} (sound : venue.Sound) :
    ofRecord venue.toRecord = .ok venue := by
  have permuted : venue.jobsByAge.Perm venue.jobs.values := Job.sortByAge_perm _
  have distinct : (venue.jobsByAge.map Job.id).Nodup := by
    rw [(permuted.map Job.id).nodup_iff, map_id_values fun id job found => (sound.filed id job found).1]
    exact venue.jobs.keys_nodup
  have filed : fileJobs venue.market.id venue.jobsByAge .empty = .ok venue.jobs := by
    refine fileJobs_eq_ok.2 ⟨?_, distinct, fun _ _ => rfl, ?_⟩
    · intro job inside
      exact (sound.filed job.id job ((mem_jobsByAge sound job).1 inside)).2
    · apply KeyMap.ext
      intro id
      apply Option.ext
      intro job
      rw [get?_filed distinct, mem_jobsByAge sound]
      constructor
      · intro found
        exact ⟨(sound.filed id job found).1 ▸ found, (sound.filed id job found).1⟩
      · intro found
        exact found.2 ▸ found.1
  have vault : Vault.ofMarket venue.market.id venue.vault.balance = venue.vault := by
    rw [Vault.ofMarket, ← sound.named, ← sound.vaultNamed]
  have audited : venue.audit = .ok () :=
    (audit_eq_ok_iff_sound fun id job found => (sound.filed id job found).1).2 sound
  unfold ofRecord toRecord
  simp only [filed, vault]
  change (venue.audit >>= fun _ => pure venue) = _
  rw [audited]
  rfl

end Venue

namespace Store

/-- Jobs enter the index exactly when they are distinct and not in it. -/
theorem enterJobs_eq_ok {market : Key} {ids : List Key} {index result : KeyMap Key} :
    enterJobs market ids index = .ok result ↔
      ids.Nodup ∧ (∀ id ∈ ids, index.get? id = none) ∧
        result = index.insertAll (ids.map fun id => (id, market)) := by
  induction ids generalizing index with
  | nil =>
      unfold enterJobs
      rw [Except.ok.injEq]
      simp [KeyMap.insertAll, eq_comm]
  | cons first rest inductionHypothesis =>
      unfold enterJobs
      rw [List.forall_mem_cons, List.nodup_cons]
      cases known : index.contains first with
      | true =>
          rw [if_pos rfl]
          obtain ⟨other, found⟩ := KeyMap.contains_iff_exists.1 known
          simp [found]
      | false =>
          have free := KeyMap.contains_eq_false.1 known
          rw [if_neg Bool.false_ne_true, inductionHypothesis, KeyMap.free_insert_iff]
          simp only [free, true_and]
          constructor
          · intro accepted
            obtain ⟨distinct, ⟨new, others⟩, same⟩ := accepted
            exact ⟨⟨new, distinct⟩, others, same⟩
          · intro accepted
            obtain ⟨⟨new, distinct⟩, others, same⟩ := accepted
            exact ⟨distinct, ⟨new, others⟩, same⟩

/-- The index after jobs of a market have entered it. -/
theorem get?_entered {market : Key} {ids : List Key} {index : KeyMap Key} (distinct : ids.Nodup)
    (free : ∀ id ∈ ids, index.get? id = none) (job other : Key) :
    (index.insertAll (ids.map fun id => (id, market))).get? job = some other ↔
      (job ∈ ids ∧ market = other) ∨ index.get? job = some other := by
  have names : (ids.map fun id => (id, market)).map Prod.fst = ids := by
    rw [List.map_map]
    exact List.map_id ids
  rw [← names] at distinct free
  rw [KeyMap.get?_insertAll distinct free, List.mem_map]
  simp only [Prod.mk.injEq]
  constructor
  · intro entered
    obtain ⟨id, inside, same, owner⟩ | before := entered
    · subst same
      exact .inl ⟨inside, owner⟩
    · exact .inr before
  · intro entered
    obtain ⟨inside, owner⟩ | before := entered
    · exact .inl ⟨job, inside, rfl, owner⟩
    · exact .inr before

variable {store next whole : Store}

/-- The store with one more market, taken over from elsewhere. -/
def adopt (store : Store) (venue : Venue) : Store :=
  { store with
    venues := store.venues.insert venue.market.id venue
    jobMarkets := store.jobMarkets.insertAll (venue.jobs.keys.map fun id => (id, venue.market.id)) }

/-- A sound ledger of a new market, with new jobs, keeps the store sound. -/
theorem Sound.adopt (sound : store.Sound) {venue : Venue} (audited : venue.Sound)
    (free : store.venues.get? venue.market.id = none)
    (unused : ∀ job ∈ venue.jobs.keys, store.jobMarkets.get? job = none) :
    (store.adopt venue).Sound := by
  refine sound.file rfl rfl rfl audited ?_
  intro job other
  change (store.jobMarkets.insertAll _).get? job = some other ↔ _
  rw [get?_entered venue.jobs.keys_nodup unused, ← KeyMap.contains_iff_mem_keys]
  by_cases same : venue.market.id = other
  · subst same
    have missing : ¬ store.jobMarkets.get? job = some venue.market.id := by
      intro found
      obtain ⟨known, place, -⟩ := (sound.indexed job venue.market.id).1 found
      rw [free] at place
      cases place
    rw [if_pos rfl, or_iff_left missing]
    exact and_iff_left rfl
  · rw [if_neg same, or_iff_right]
    intro entered
    exact same entered.2

/-- A record is added exactly when its ledger is accepted, its market is new and so are its
jobs. -/
theorem addMarkets_cons_eq_ok {record : MarketRecord} {rest : List MarketRecord} :
    store.addMarkets (record :: rest) = .ok next ↔
      ∃ venue, Venue.ofRecord record = .ok venue ∧ store.venues.get? venue.market.id = none ∧
        (∀ job ∈ venue.jobs.keys, store.jobMarkets.get? job = none) ∧
        (store.adopt venue).addMarkets rest = .ok next := by
  rw [addMarkets]
  simp only [Guard.bind_eq_ok, Guard.refuse_eq_ok, Bool.not_eq_true, KeyMap.contains_eq_false]
  constructor
  · intro accepted
    obtain ⟨venue, described, index, entered, free, later⟩ := accepted
    obtain ⟨-, unused, same⟩ := enterJobs_eq_ok.1 entered
    rw [← (Venue.sound_of_ofRecord described).1] at free same later
    subst same
    exact ⟨venue, described, free, unused, later⟩
  · intro accepted
    obtain ⟨venue, described, free, unused, later⟩ := accepted
    refine ⟨venue, described, _, enterJobs_eq_ok.2 ⟨venue.jobs.keys_nodup, unused, rfl⟩, ?_⟩
    rw [← (Venue.sound_of_ofRecord described).1]
    exact ⟨free, later⟩

/-- Records that are accepted one after the other leave a sound store. -/
theorem sound_of_addMarkets {records : List MarketRecord} (sound : store.Sound)
    (added : store.addMarkets records = .ok next) : next.Sound := by
  induction records generalizing store with
  | nil =>
      cases added
      exact sound
  | cons record rest inductionHypothesis =>
      obtain ⟨venue, accepted, free, unused, later⟩ := addMarkets_cons_eq_ok.1 added
      have audited := (Venue.sound_of_ofRecord accepted).2
      exact inductionHypothesis (sound.adopt audited free unused) later

theorem sound_empty {config : Config} (valid : config.validate = .ok ()) :
    (empty config).Sound where
  valid := valid
  named id venue found := by cases found
  ledgers id venue found := by cases found
  indexed job market := by
    change none = some market ↔ ∃ venue, none = some venue ∧ _
    simp

/-- A new store is sound. -/
theorem sound_of_new {config : Config} (opened : new config = .ok store) : store.Sound := by
  obtain ⟨valid, same⟩ := Guard.unit_bind_eq_ok.1 opened
  cases same
  exact sound_empty valid

/-- A new store has the configuration that it was given. -/
theorem config_of_new {config : Config} (opened : new config = .ok store) :
    store.config = config := by
  obtain ⟨-, same⟩ := Guard.unit_bind_eq_ok.1 opened
  cases same
  rfl

/-- Every store that comes back from a snapshot is sound. -/
theorem sound_of_restore {snapshot : Snapshot} {config : Config}
    (restored : restore snapshot config = .ok store) : store.Sound := by
  unfold restore at restored
  obtain ⟨-, checked⟩ := Guard.refuse_eq_ok.1 restored
  obtain ⟨valid, filled⟩ := Guard.unit_bind_eq_ok.1 checked
  obtain ⟨full, added, same⟩ := Guard.bind_eq_ok.1 filled
  cases same
  have sound := sound_of_addMarkets (sound_empty valid) added
  exact ⟨sound.valid, sound.named, sound.ledgers, sound.indexed⟩

/-- A part of a store without one of its markets has no index entry for a job of that market. -/
theorem Sound.unindexed_of_part (sound : store.Sound) (wholeSound : whole.Sound)
    (part : ∀ id venue, store.venues.get? id = some venue → whole.venues.get? id = some venue)
    {market job : Key} {venue : Venue} (found : whole.venues.get? market = some venue)
    (missing : store.venues.get? market = none) (member : job ∈ venue.jobs.keys) :
    store.jobMarkets.get? job = none := by
  cases indexed : store.jobMarkets.get? job with
  | none => rfl
  | some other =>
      obtain ⟨otherVenue, otherFound, holds⟩ := (sound.indexed job other).1 indexed
      -- the whole files the job under one market, so the part had that market already
      have first := (wholeSound.index_iff (part other otherVenue otherFound) job).2 holds
      have second := (wholeSound.index_iff found job).2 (KeyMap.contains_iff_mem_keys.2 member)
      rw [first, Option.some.injEq] at second
      subst second
      rw [otherFound] at missing
      cases missing

/-- The markets of a sound store can be added to any part of the store without them. -/
theorem addMarkets_of_part (wholeSound : whole.Sound) {entries : List (Key × Venue)}
    (inside : ∀ entry ∈ entries, whole.venues.get? entry.1 = some entry.2)
    (distinct : (entries.map Prod.fst).Nodup) (sound : store.Sound)
    (part : ∀ id venue, store.venues.get? id = some venue → whole.venues.get? id = some venue)
    (free : ∀ id ∈ entries.map Prod.fst, store.venues.get? id = none) :
    ∃ index, store.addMarkets (entries.map fun entry => entry.2.toRecord) =
      .ok { store with venues := store.venues.insertAll entries, jobMarkets := index } := by
  induction entries generalizing store with
  | nil => exact ⟨store.jobMarkets, rfl⟩
  | cons first rest inductionHypothesis =>
      obtain ⟨id, venue⟩ := first
      rw [List.map_cons, List.nodup_cons] at distinct
      rw [List.map_cons, List.forall_mem_cons] at free
      rw [List.forall_mem_cons] at inside
      have audited := wholeSound.ledgers id venue inside.1
      have named : venue.market.id = id := wholeSound.named id venue inside.1
      subst named
      have unused : ∀ job ∈ venue.jobs.keys, store.jobMarkets.get? job = none :=
        fun job => sound.unindexed_of_part wholeSound part inside.1 free.1
      have partLater : ∀ other known, (store.adopt venue).venues.get? other = some known →
          whole.venues.get? other = some known := by
        intro other known found
        change (store.venues.insert venue.market.id venue).get? other = some known at found
        rw [KeyMap.get?_insert] at found
        split at found
        · rename_i same
          subst same
          cases found
          exact inside.1
        · exact part other known found
      obtain ⟨index, later⟩ := inductionHypothesis inside.2 distinct.2
        (sound.adopt audited free.1 unused) partLater
        (KeyMap.free_insert_iff.2 ⟨distinct.1, free.2⟩)
      exact ⟨index, addMarkets_cons_eq_ok.2
        ⟨venue, Venue.ofRecord_toRecord audited, free.1, unused, later⟩⟩

/-- Sound stores with the same markets have the same index. -/
theorem Sound.jobMarkets_eq (sound : store.Sound) (otherSound : next.Sound)
    (same : store.venues = next.venues) : store.jobMarkets = next.jobMarkets := by
  apply KeyMap.ext
  intro job
  apply Option.ext
  intro market
  rw [sound.indexed, otherSound.indexed, same]

/-- The snapshot of a sound store is accepted and gives the store back, except the events. -/
theorem restore_snapshot (sound : store.Sound) :
    restore store.snapshot store.config = .ok { store with events := [] } := by
  have distinct : (store.venues.entries.map Prod.fst).Nodup := store.venues.keys_nodup
  obtain ⟨index, added⟩ := addMarkets_of_part sound
    (fun entry member => KeyMap.mem_entries_iff.1 member) distinct (sound_empty sound.valid)
    (fun id venue found => by cases found) (fun id member => rfl)
  have venues : KeyMap.empty.insertAll store.venues.entries = store.venues := by
    apply KeyMap.ext
    intro id
    apply Option.ext
    intro venue
    rw [KeyMap.get?_insertAll distinct fun _ _ => rfl, KeyMap.mem_entries_iff]
    simp
  have recorded : store.snapshot.markets =
      store.venues.entries.map fun entry => entry.2.toRecord := by
    change (store.venues.entries.map Prod.snd).map Venue.toRecord = _
    rw [List.map_map]
    rfl
  have filled := sound_of_addMarkets (sound_empty sound.valid) added
  have sameIndex : index = store.jobMarkets := filled.jobMarkets_eq sound venues
  unfold restore
  rw [recorded]
  refine Guard.refuse_eq_ok.2 ⟨fun different => different rfl, ?_⟩
  rw [sound.valid, added, sameIndex]
  change Except.ok { empty store.config with
    venues := KeyMap.empty.insertAll store.venues.entries
    jobMarkets := store.jobMarkets
    balances := store.balances
    reputations := store.reputations } = _
  rw [venues]
  rfl

end Store

end ComputeMarket
