import ComputeMarket.Proofs.Store.Restore
import Mathlib.Data.List.Nodup

/-
This file proves which snapshots a store can come back from, and that nothing of them is lost: the
snapshot of the store that comes back is the one that was given, with its parts in order.
-/

namespace ComputeMarket

/-- A sorted list is the sorted form of every list with the same members, if no two of these have
one rank. -/
theorem eq_mergeSort_of_perm {α : Type} {below : α → α → Bool}
    (trans : ∀ first second third, below first second = true → below second third = true →
      below first third = true)
    (total : ∀ first second, (below first second || below second first) = true)
    {sorted items : List α} (ordered : sorted.Pairwise fun first second => below first second = true)
    (permuted : sorted.Perm items)
    (distinct : ∀ first ∈ items, ∀ second ∈ items, below first second = true →
      below second first = true → first = second) :
    sorted = items.mergeSort below := by
  refine List.Perm.eq_of_pairwise ?_ ordered (List.pairwise_mergeSort trans total items)
    (permuted.trans (List.mergeSort_perm items below).symm)
  intro first second inside other
  exact distinct first (permuted.mem_iff.1 inside) second ((List.mergeSort_perm _ _).mem_iff.1 other)

namespace KeyMap

variable {α : Type}

/-- A map that is filled with entries under distinct keys has these entries. -/
theorem entries_insertAll_perm {entries : List (Key × α)} (distinct : (entries.map Prod.fst).Nodup) :
    (empty.insertAll entries).entries.Perm entries := by
  have rising := (empty.insertAll entries).sorted
  refine (List.perm_ext_iff_of_nodup ?_ (List.Nodup.of_map Prod.fst distinct)).2 ?_
  · exact rising.imp fun before same => by simp [same] at before
  · rintro ⟨key, value⟩
    rw [mem_entries_iff, get?_insertAll distinct fun _ _ => rfl]
    simp

/-- Keys are free after entries are filed when they were free and are not among theirs. -/
theorem free_insertAll_iff {map : KeyMap α} {entries : List (Key × α)} {keys : List Key} :
    (∀ key ∈ keys, (map.insertAll entries).get? key = none) ↔
      (∀ key ∈ entries.map Prod.fst, key ∉ keys) ∧ ∀ key ∈ keys, map.get? key = none := by
  induction entries generalizing map with
  | nil => simp [insertAll]
  | cons first rest inductionHypothesis =>
      change (∀ key ∈ keys, ((map.insert first.1 first.2).insertAll rest).get? key = none) ↔ _
      rw [inductionHypothesis, free_insert_iff, List.map_cons, List.forall_mem_cons]
      tauto

end KeyMap

namespace Job

/-- A job is older if it was created earlier, or at the same time with a smaller id. -/
theorem isOlder_iff {left right : Job} :
    left.isOlder right = true ↔ left.created < right.created ∨
      left.created = right.created ∧ left.id.number ≤ right.id.number := by
  simp [isOlder]

/-- Age is transitive. -/
theorem isOlder_trans (first second third : Job) (before : first.isOlder second = true)
    (later : second.isOlder third = true) : first.isOlder third = true := by
  simp only [isOlder_iff, Int64.lt_iff_toInt_lt, ← Int64.toInt_inj] at before later ⊢
  omega

theorem isOlder_total (left right : Job) : (left.isOlder right || right.isOlder left) = true := by
  simp only [Bool.or_eq_true, isOlder_iff, Int64.lt_iff_toInt_lt, ← Int64.toInt_inj]
  omega

/-- Jobs of one age with one id are one record where ids are distinct. -/
theorem id_eq_of_isOlder {left right : Job} (before : left.isOlder right = true)
    (later : right.isOlder left = true) : left.id = right.id := by
  simp only [isOlder_iff, Int64.lt_iff_toInt_lt, ← Int64.toInt_inj] at before later
  apply Key.ext
  omega

/-- A job that is put in its place keeps jobs in the order of age. -/
theorem placeByAge_pairwise (job : Job) {jobs : List Job}
    (sorted : jobs.Pairwise fun left right => left.isOlder right = true) :
    (job.placeByAge jobs).Pairwise fun left right => left.isOlder right = true := by
  induction jobs with
  | nil => simp [placeByAge]
  | cons first rest inductionHypothesis =>
      have ranked := List.pairwise_cons.1 sorted
      unfold placeByAge
      split
      · rename_i before
        refine List.pairwise_cons.2 ⟨?_, sorted⟩
        intro other member
        rcases List.mem_cons.1 member with rfl | later
        · exact before
        · exact isOlder_trans job first other before (ranked.1 other later)
      · rename_i notBefore
        refine List.pairwise_cons.2 ⟨?_, inductionHypothesis ranked.2⟩
        intro other member
        rcases List.mem_cons.1 ((placeByAge_perm job rest).mem_iff.1 member) with rfl | later
        · have either := isOlder_total other first
          simpa [notBefore] using either
        · exact ranked.1 other later

/-- Sorted jobs stand in the order of age. -/
theorem sortByAge_pairwise (jobs : List Job) :
    (sortByAge jobs).Pairwise fun left right => left.isOlder right = true := by
  induction jobs with
  | nil => exact .nil
  | cons first rest inductionHypothesis => exact placeByAge_pairwise first inductionHypothesis

end Job

namespace MarketRecord

/-- The parts of a record agree: its jobs name the market, the vault is the market's, the queue
waits for nothing or holds entries without repetition, the jobs that wait in it are those whose
records say so, jobs have a node as their states demand, and the prices of the open jobs are in the
vault. -/
structure Consistent (record : MarketRecord) : Prop where
  filed : ∀ job ∈ record.jobs, job.market = record.market.id
  vault : record.market.vault = Vault.addressOf record.market.id
  queue : record.market.queue = .empty ∨
    record.market.queue.entries ≠ [] ∧ record.market.queue.entries.Nodup
  waiting : ∀ id, (∃ job ∈ record.jobs, job.id = id ∧ job.state = .queued) ↔
    record.market.queue.side? = some .job ∧ id ∈ record.market.queue.entries
  free : ∀ job ∈ record.jobs, job.state = .queued ∨ job.state = .stopped → job.node = none
  bound : ∀ job ∈ record.jobs, job.state = .running ∨ job.state = .completed → job.node ≠ none
  escrowed : ((record.jobs.filter fun job => job.state = .queued ∨ job.state = .running).map
    fun job => job.price.base).sum = record.vaultBalance.base

/-- The ledger that a record describes, whether or not its parts agree. -/
def venue (record : MarketRecord) : Venue where
  market := record.market
  vault := Vault.ofMarket record.market.id record.vaultBalance
  jobs := KeyMap.empty.insertAll (record.jobs.map fun job => (job.id, job))

variable {record : MarketRecord}

theorem map_fst_entries (jobs : List Job) :
    (jobs.map fun job => (job.id, job)).map Prod.fst = jobs.map Job.id := by
  simp [Function.comp_def]

theorem keys_venue (distinct : (record.jobs.map Job.id).Nodup) :
    record.venue.jobs.keys.Perm (record.jobs.map Job.id) := by
  rw [← map_fst_entries] at distinct ⊢
  exact (KeyMap.entries_insertAll_perm distinct).map Prod.fst

/-- The ledger made of a record has its jobs and no others. -/
theorem values_venue (distinct : (record.jobs.map Job.id).Nodup) :
    record.venue.jobs.values.Perm record.jobs := by
  rw [← map_fst_entries] at distinct
  have permuted := (KeyMap.entries_insertAll_perm distinct).map Prod.snd
  rw [List.map_map, Function.comp_def, List.map_id'] at permuted
  exact permuted

/-- In the ledger made of a record a job is found under its own id. -/
theorem get?_venue (distinct : (record.jobs.map Job.id).Nodup) {id : Key} {job : Job} :
    record.venue.jobs.get? id = some job ↔ job ∈ record.jobs ∧ job.id = id :=
  Venue.get?_filed distinct id job

end MarketRecord

/-- A queue is well formed exactly if it is empty, or it has entries and none of them twice. -/
theorem Queue.isWellFormed_iff {queue : Queue} :
    queue.isWellFormed = true ↔ queue = .empty ∨ queue.entries ≠ [] ∧ queue.entries.Nodup := by
  cases queue <;> simp [isWellFormed, entries]

/-- Somebody waits on a side exactly if the queue is tagged with it and has the entry. -/
theorem Queue.mem_entriesOf {queue : Queue} {side : Side} {id : Key} :
    id ∈ queue.entriesOf side ↔ queue.side? = some side ∧ id ∈ queue.entries := by
  by_cases same : queue.side? = some side <;> simp [entriesOf, same]

namespace MarketRecord

variable {record : MarketRecord}

/-- The prices in escrow are those of the open jobs. -/
theorem total_held_venue (distinct : (record.jobs.map Job.id).Nodup) :
    record.venue.jobs.total Job.held =
      ((record.jobs.filter fun job => job.state = .queued ∨ job.state = .running).map
        fun job => job.price.base).sum := by
  have unsettled : (fun job : Job => decide (job.state = .queued ∨ job.state = .running)) =
      Job.isOpen := by
    funext job
    rw [Bool.eq_iff_iff, decide_eq_true_eq]
    exact JobState.isOpen_iff.symm
  rw [unsettled, Venue.sum_filter_isOpen]
  exact ((values_venue distinct).map Job.held).sum_eq

/-- The ledger of a record is sound exactly when the parts of the record agree. -/
theorem sound_venue_iff (distinct : (record.jobs.map Job.id).Nodup) :
    record.venue.Sound ↔ record.Consistent := by
  have filed {id : Key} {job : Job} : record.venue.jobs.get? id = some job ↔
      job ∈ record.jobs ∧ job.id = id := get?_venue distinct
  have waits (id : Key) : id ∈ record.venue.waitingJobs ↔
      record.market.queue.side? = some .job ∧ id ∈ record.market.queue.entries :=
    Queue.mem_entriesOf
  constructor
  · intro sound
    refine ⟨?_, sound.named, Queue.isWellFormed_iff.1 sound.formed, ?_, ?_, ?_, ?_⟩
    · intro job member
      exact (sound.filed job.id job (filed.2 ⟨member, rfl⟩)).2
    · intro id
      rw [← waits, sound.waiting]
      simp only [filed, and_assoc]
    · intro job member
      exact (Venue.nodeAgrees_iff.1 (sound.bound job.id job (filed.2 ⟨member, rfl⟩))).1
    · intro job member
      exact (Venue.nodeAgrees_iff.1 (sound.bound job.id job (filed.2 ⟨member, rfl⟩))).2
    · rw [← total_held_venue distinct]
      exact sound.escrowed
  · intro consistent
    refine ⟨consistent.vault, consistent.vault.symm, Queue.isWellFormed_iff.2 consistent.queue,
      ?_, ?_, ?_, ?_⟩
    · intro id
      rw [waits, ← consistent.waiting]
      simp only [filed, and_assoc]
    · intro id job found
      obtain ⟨member, same⟩ := filed.1 found
      exact ⟨same, consistent.filed job member⟩
    · intro id job found
      obtain ⟨member, -⟩ := filed.1 found
      exact Venue.nodeAgrees_iff.2 ⟨consistent.free job member, consistent.bound job member⟩
    · rw [total_held_venue distinct]
      exact consistent.escrowed

/-- A record is accepted exactly when its jobs have distinct ids and its parts agree. -/
theorem ofRecord_eq_ok {venue : Venue} :
    Venue.ofRecord record = .ok venue ↔
      (record.jobs.map Job.id).Nodup ∧ record.Consistent ∧ venue = record.venue := by
  have audited (distinct : (record.jobs.map Job.id).Nodup) :
      record.venue.audit = .ok () ↔ record.Consistent := by
    rw [← sound_venue_iff distinct]
    exact Venue.audit_eq_ok_iff_sound fun id job found => ((get?_venue distinct).1 found).2
  unfold Venue.ofRecord
  rw [Guard.bind_eq_ok]
  constructor
  · rintro ⟨jobs, filed, checked⟩
    obtain ⟨-, distinct, -, rfl⟩ := Venue.fileJobs_eq_ok.1 filed
    obtain ⟨passed, same⟩ := Guard.unit_bind_eq_ok.1 checked
    cases same
    exact ⟨distinct, (audited distinct).1 passed, rfl⟩
  · rintro ⟨distinct, consistent, rfl⟩
    refine ⟨_, Venue.fileJobs_eq_ok.2 ⟨consistent.filed, distinct, fun _ _ => rfl, rfl⟩, ?_⟩
    exact Guard.unit_bind_eq_ok.2 ⟨(audited distinct).2 consistent, rfl⟩

/-- The record with its jobs in the order of their times, those of one time by their ids. -/
def ordered (record : MarketRecord) : MarketRecord :=
  { record with
    jobs := record.jobs.mergeSort fun left right =>
      left.created < right.created ∨ left.created = right.created ∧ left.id.number ≤ right.id.number }

/-- The ledger of a record is recorded as it was given, with the jobs in order. -/
theorem toRecord_venue (distinct : (record.jobs.map Job.id).Nodup) :
    record.venue.toRecord = record.ordered := by
  have order : Job.isOlder = fun left right => decide (left.created < right.created ∨
      left.created = right.created ∧ left.id.number ≤ right.id.number) := by
    funext left right
    rw [Bool.eq_iff_iff, decide_eq_true_eq]
    exact Job.isOlder_iff
  have sorted : record.venue.jobsByAge = record.jobs.mergeSort Job.isOlder := by
    refine eq_mergeSort_of_perm Job.isOlder_trans Job.isOlder_total (Job.sortByAge_pairwise _)
      ((Job.sortByAge_perm _).trans (values_venue distinct)) ?_
    intro first inside second other before later
    exact List.inj_on_of_nodup_map distinct inside other (Job.id_eq_of_isOlder before later)
  rw [order] at sorted
  rw [Venue.toRecord, sorted]
  rfl

end MarketRecord

namespace Snapshot

/-- What a store can come back from: the version is known, no market and no job occurs twice, and
every record agrees in itself. -/
structure Consistent (snapshot : Snapshot) : Prop where
  version : snapshot.version = 1
  markets : (snapshot.markets.map fun record => record.market.id).Nodup
  jobs : (snapshot.markets.flatMap fun record => record.jobs.map Job.id).Nodup
  records : ∀ record ∈ snapshot.markets, record.Consistent

/-- The snapshot with its markets in the order of their ids and the jobs of each in the order of
their times and ids. -/
def ordered (snapshot : Snapshot) : Snapshot :=
  { snapshot with
    markets := (snapshot.markets.map MarketRecord.ordered).mergeSort fun left right =>
      left.market.id.number ≤ right.market.id.number }

end Snapshot

namespace Store

variable {store next : Store} {records : List MarketRecord}

/-- The store with the markets of records, taken over one after the other. -/
def adoptAll (store : Store) (records : List MarketRecord) : Store :=
  records.foldl (fun store record => store.adopt record.venue) store

/-- The markets of a restored store are the ledgers made of the records. -/
theorem venues_adoptAll (store : Store) (records : List MarketRecord) :
    (store.adoptAll records).venues =
      store.venues.insertAll (records.map fun record => (record.market.id, record.venue)) := by
  induction records generalizing store with
  | nil => rfl
  | cons first rest inductionHypothesis => exact inductionHypothesis (store.adopt first.venue)

/-- A job is free after a market was taken over when it was free and is none of the market's. -/
theorem free_adopt_iff {record : MarketRecord} (distinct : (record.jobs.map Job.id).Nodup)
    {ids : List Key} :
    (∀ id ∈ ids, (store.adopt record.venue).jobMarkets.get? id = none) ↔
      (∀ id ∈ record.jobs.map Job.id, id ∉ ids) ∧ ∀ id ∈ ids, store.jobMarkets.get? id = none := by
  have names : (record.venue.jobs.keys.map fun id => (id, record.venue.market.id)).map Prod.fst =
      record.venue.jobs.keys := by
    simp [Function.comp_def]
  rw [adopt, KeyMap.free_insertAll_iff, names]
  simp only [(MarketRecord.keys_venue distinct).mem_iff]

/-- Records are added exactly when their parts agree and neither a market nor a job occurs twice or
is in the store already. -/
theorem addMarkets_eq_ok :
    store.addMarkets records = .ok next ↔
      (∀ record ∈ records, record.Consistent) ∧
      ((records.map fun record => record.market.id).Nodup ∧
        ∀ id ∈ records.map fun record => record.market.id, store.venues.get? id = none) ∧
      ((records.flatMap fun record => record.jobs.map Job.id).Nodup ∧
        ∀ id ∈ records.flatMap fun record => record.jobs.map Job.id,
          store.jobMarkets.get? id = none) ∧
      next = store.adoptAll records := by
  induction records generalizing store with
  | nil => simp [addMarkets, adoptAll, eq_comm]
  | cons record rest inductionHypothesis =>
      rw [addMarkets_cons_eq_ok]
      simp only [MarketRecord.ofRecord_eq_ok, List.map_cons, List.flatMap_cons, List.nodup_cons,
        List.nodup_append, List.forall_mem_cons, List.forall_mem_append]
      constructor
      · rintro ⟨venue, ⟨distinct, consistent, rfl⟩, free, unused, later⟩
        obtain ⟨others, ⟨markets, freeMarkets⟩, ⟨jobs, freeJobs⟩, same⟩ :=
          inductionHypothesis.1 later
        obtain ⟨new, freeMarkets⟩ := KeyMap.free_insert_iff.1 freeMarkets
        obtain ⟨apart, freeJobs⟩ := (free_adopt_iff distinct).1 freeJobs
        have unusedIds : ∀ id ∈ record.jobs.map Job.id, store.jobMarkets.get? id = none :=
          fun id member => unused id ((MarketRecord.keys_venue distinct).mem_iff.2 member)
        have different : ∀ id ∈ record.jobs.map Job.id,
            ∀ other ∈ rest.flatMap fun record => record.jobs.map Job.id, id ≠ other :=
          fun id member => List.forall_mem_ne.2 (apart id member)
        exact ⟨⟨consistent, others⟩, ⟨⟨new, markets⟩, free, freeMarkets⟩,
          ⟨⟨distinct, jobs, different⟩, unusedIds, freeJobs⟩, same⟩
      · rintro ⟨⟨consistent, others⟩, ⟨⟨new, markets⟩, free, freeMarkets⟩,
          ⟨⟨distinct, jobs, different⟩, unused, freeJobs⟩, same⟩
        refine ⟨record.venue, ⟨distinct, consistent, rfl⟩, free, ?_, ?_⟩
        · intro id member
          exact unused id ((MarketRecord.keys_venue distinct).mem_iff.1 member)
        · have apart : ∀ id ∈ record.jobs.map Job.id,
              id ∉ rest.flatMap fun record => record.jobs.map Job.id :=
            fun id member => List.forall_mem_ne.1 (different id member)
          exact inductionHypothesis.2 ⟨others,
            ⟨markets, KeyMap.free_insert_iff.2 ⟨new, freeMarkets⟩⟩,
            ⟨jobs, (free_adopt_iff distinct).2 ⟨apart, freeJobs⟩⟩, same⟩

/-- A store comes back exactly from the snapshots whose parts agree, if its queues have room. -/
theorem restore_eq_ok {snapshot : Snapshot} {config : Config} :
    restore snapshot config = .ok store ↔
      0 < config.capacity.value ∧ snapshot.Consistent ∧
      store = { (empty config).adoptAll snapshot.markets with
        balances := snapshot.balances, reputations := snapshot.reputations } := by
  have valid : config.validate = .ok () ↔ 0 < config.capacity.value := by
    have zero : config.capacity = .zero ↔ config.capacity.value = 0 := Count.ext_iff
    rw [Config.validate, Nat.pos_iff_ne_zero, ne_eq, ← zero]
    by_cases nothing : config.capacity = .zero <;> simp [nothing]
  rw [restore, Guard.refuse_eq_ok, Guard.unit_bind_eq_ok, Guard.bind_eq_ok, valid, not_not]
  simp only [addMarkets_eq_ok]
  constructor
  · rintro ⟨version, room, full, ⟨records, ⟨markets, -⟩, ⟨jobs, -⟩, rfl⟩, same⟩
    cases same
    exact ⟨room, ⟨version, markets, jobs, records⟩, rfl⟩
  · rintro ⟨room, ⟨version, markets, jobs, records⟩, rfl⟩
    exact ⟨version, room, _, ⟨records, ⟨markets, fun _ _ => rfl⟩, ⟨jobs, fun _ _ => rfl⟩, rfl⟩, rfl⟩

/-- The markets of records with distinct ids are recorded in the order of their ids. -/
theorem toRecord_adoptAll {config : Config}
    (distinct : (records.map fun record => record.market.id).Nodup)
    (jobs : ∀ record ∈ records, (record.jobs.map Job.id).Nodup) :
    ((empty config).adoptAll records).venues.values.map Venue.toRecord =
      (records.map MarketRecord.ordered).mergeSort fun left right =>
        left.market.id.number ≤ right.market.id.number := by
  let entries := records.map fun record => (record.market.id, record.venue)
  have names : entries.map Prod.fst = records.map fun record => record.market.id := by
    simp [entries, Function.comp_def]
  have venues : ((empty config).adoptAll records).venues = KeyMap.empty.insertAll entries :=
    venues_adoptAll _ records
  have permuted : (KeyMap.empty.insertAll entries).entries.Perm entries :=
    KeyMap.entries_insertAll_perm (names ▸ distinct)
  have named : ∀ entry ∈ (KeyMap.empty.insertAll entries).entries, entry.2.market.id = entry.1 := by
    intro entry member
    obtain ⟨record, -, rfl⟩ := List.mem_map.1 (permuted.mem_iff.1 member)
    rfl
  have recorded : entries.map (fun entry => entry.2.toRecord) = records.map MarketRecord.ordered := by
    rw [List.map_map]
    exact List.map_congr_left fun record member => MarketRecord.toRecord_venue (jobs record member)
  have unique : ((records.map MarketRecord.ordered).map fun record => record.market.id).Nodup := by
    rw [List.map_map]
    exact distinct
  rw [venues, KeyMap.values, List.map_map]
  apply eq_mergeSort_of_perm
  · intro first second third
    simpa using Nat.le_trans
  · intro first second
    simpa using Nat.le_total _ _
  · rw [List.pairwise_map]
    refine (KeyMap.empty.insertAll entries).sorted.imp_of_mem ?_
    intro first second inside other before
    have firstId : first.2.toRecord.market.id = first.1 := named first inside
    have secondId : second.2.toRecord.market.id = second.1 := named second other
    simpa [firstId, secondId] using Nat.le_of_lt before
  · rw [← recorded]
    exact permuted.map _
  · intro first inside second other before later
    simp only [decide_eq_true_eq] at before later
    exact List.inj_on_of_nodup_map unique inside other (Key.ext (Nat.le_antisymm before later))

/-- A store comes back from a snapshot exactly if queues may hold something and the parts of the
snapshot agree, and nothing is lost then: its own snapshot is the one that was given, with markets
and jobs in order. -/
theorem restore_accepts_consistent (snapshot : Snapshot) (config : Config) :
    ((∃ store, restore snapshot config = .ok store) ↔
      0 < config.capacity.value ∧ snapshot.Consistent) ∧
    ∀ store, restore snapshot config = .ok store → store.snapshot = snapshot.ordered := by
  simp only [restore_eq_ok]
  constructor
  · constructor
    · rintro ⟨store, room, consistent, -⟩
      exact ⟨room, consistent⟩
    · rintro ⟨room, consistent⟩
      exact ⟨_, room, consistent, rfl⟩
  · rintro store ⟨-, consistent, rfl⟩
    have distinct : ∀ record ∈ snapshot.markets, (record.jobs.map Job.id).Nodup :=
      (List.nodup_flatMap.1 consistent.jobs).1
    rw [Store.snapshot, toRecord_adoptAll consistent.markets distinct, Snapshot.ordered]
    congr 1
    exact consistent.version.symm

/-- A snapshot with markets and jobs out of order. A job waits in one market. In the other, one job
was withdrawn, and one ran out of time on a node. -/
def shuffled : Snapshot :=
  let market (id : UInt8) (queue : Queue) : Market :=
    { Market.new (Key.ofBytes [id]) (Key.ofBytes [9]) ⟨.ofTokens 2, 60, .zero⟩ with queue }
  let job (id place : UInt8) (node : Option Key) (state : JobState) (created : Int64) : Job :=
    { Job.ofRequest ⟨Key.ofBytes [id], ⟨Word.ofNumber 5⟩, 8, .any⟩ (Key.ofBytes [place])
        (Key.ofBytes [8]) (.ofTokens 2) 60 created with node, state }
  { version := 1
    markets :=
      [⟨market 2 (.jobs [Key.ofBytes [4]]), .ofTokens 2, [job 4 2 none .queued 3]⟩,
       ⟨market 1 .empty, .zero,
        [job 6 1 (some (Key.ofBytes [7])) .timedOut 5, job 5 1 none .stopped 5]⟩]
    balances := ⟨.empty⟩
    reputations := .empty }

/-- A snapshot whose markets and jobs stand in any order is accepted, and the next one is in order.
-/
theorem restore_accepts_consistent_shuffled :
    shuffled.Consistent ∧ ∃ store, restore shuffled {} = .ok store ∧
      store.snapshot = shuffled.ordered ∧
      store.snapshot.markets.map (fun record => (record.market.id, record.jobs.map Job.id)) =
        [(Key.ofBytes [1], [Key.ofBytes [5], Key.ofBytes [6]]),
         (Key.ofBytes [2], [Key.ofBytes [4]])] := by
  have same := restore_accepts_consistent shuffled {}
  have order : (restore shuffled {}).toOption.map (fun store => store.snapshot.markets.map
      fun record => (record.market.id, record.jobs.map Job.id)) =
        some [(Key.ofBytes [1], [Key.ofBytes [5], Key.ofBytes [6]]),
          (Key.ofBytes [2], [Key.ofBytes [4]])] := by
    decide +kernel
  cases restored : restore shuffled {} with
  | error cause =>
      rw [restored] at order
      cases order
  | ok store =>
      rw [restored] at order
      exact ⟨(same.1.1 ⟨store, restored⟩).2, store, rfl, same.2 store restored,
        Option.some.inj order⟩

end Store

end ComputeMarket
