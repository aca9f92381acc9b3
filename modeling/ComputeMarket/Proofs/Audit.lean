import ComputeMarket.Venue
import ComputeMarket.Proofs.Guard
import ComputeMarket.Proofs.Money
import ComputeMarket.Proofs.Queue

/-
This file says what it means that the parts of a ledger agree, and that the audit finds out.
-/

namespace ComputeMarket

namespace Job

/-- How much of the price of a job is in escrow. -/
def held (job : Job) : Nat := if job.isOpen then job.price.base else 0

end Job

namespace Venue

/-- The parts of a ledger agree: the vault is the market's, the queue holds exactly the queued
jobs, every job is filed under its id in its market and has a node when its state says so, and
the vault holds the sum of the prices of the open jobs. -/
structure Sound (venue : Venue) : Prop where
  named : venue.market.vault = Vault.addressOf venue.market.id
  vaultNamed : venue.vault.address = venue.market.vault
  formed : venue.market.queue.isWellFormed = true
  waiting : ∀ id, id ∈ venue.waitingJobs ↔
    ∃ job, venue.jobs.get? id = some job ∧ job.state = .queued
  filed : ∀ id job, venue.jobs.get? id = some job → job.id = id ∧ job.market = venue.market.id
  bound : ∀ id job, venue.jobs.get? id = some job → nodeAgrees job = true
  escrowed : venue.jobs.total Job.held = venue.vault.balance.base

/-- A sum of prices is found exactly when it is an amount. -/
theorem foldlM_price_eq_some (jobs : List Job) (start total : Amount) :
    jobs.foldlM (fun total job => total.add? job.price) start = some total ↔
      total.base = start.base + (jobs.map fun job => job.price.base).sum := by
  induction jobs generalizing start with
  | nil =>
      simp only [List.foldlM_nil, List.map_nil, List.sum_nil, Nat.add_zero]
      change some start = some total ↔ _
      rw [Option.some.injEq, Amount.ext_iff]
      exact eq_comm
  | cons first rest inductionHypothesis =>
      rw [List.foldlM_cons, List.map_cons, List.sum_cons]
      cases sum : start.add? first.price with
      | some next =>
          have exact := Amount.add?_eq_some.1 sum
          change rest.foldlM _ next = some total ↔ _
          rw [inductionHypothesis, exact, Nat.add_assoc]
      | none =>
          change none = some total ↔ _
          simp only [reduceCtorEq, false_iff]
          intro exact
          have bounded := total.base_lt
          have fits : start.base + first.price.base < 0x10000000000000000 := by omega
          have found : start.add? first.price = some ⟨_, fits⟩ := Amount.add?_eq_some.2 rfl
          rw [sum] at found
          simp at found

/-- The prices of the open jobs are what all jobs hold in the vault. -/
theorem sum_filter_isOpen (jobs : List Job) :
    ((jobs.filter Job.isOpen).map fun job => job.price.base).sum = (jobs.map Job.held).sum := by
  induction jobs with
  | nil => rfl
  | cons first rest inductionHypothesis =>
      by_cases kept : first.isOpen <;> simp [Job.held, kept, inductionHypothesis]

/-- The audit finds a total exactly if the jobs hold so much, which then fits. -/
theorem escrowed?_eq_some (venue : Venue) (total : Amount) :
    venue.escrowed? = some total ↔ venue.jobs.total Job.held = total.base := by
  rw [escrowed?, foldlM_price_eq_some, sum_filter_isOpen, KeyMap.total, Amount.base_zero,
    Nat.zero_add]
  exact eq_comm

/-- An entry of the queue passes exactly if it is a queued job. -/
theorem auditWaiting_eq_ok {venue : Venue} {id : Key} :
    venue.auditWaiting id = .ok () ↔
      ∃ job, venue.jobs.get? id = some job ∧ job.state = .queued := by
  unfold auditWaiting
  cases venue.jobs.get? id with
  | none => simp
  | some job => by_cases queued : job.state = .queued <;> simp [queued]

/-- A job agrees with its node exactly if it has none before it starts and one from then on. -/
theorem nodeAgrees_iff {job : Job} :
    nodeAgrees job = true ↔
      (job.state = .queued ∨ job.state = .stopped → job.node = none) ∧
        (job.state = .running ∨ job.state = .completed → job.node ≠ none) := by
  unfold nodeAgrees
  cases state : job.state <;> simp [Option.isSome_iff_ne_none]

/-- A record passes exactly if it is in its own market and agrees with its node. -/
theorem auditJob_eq_ok {venue : Venue} {job : Job} :
    venue.auditJob job = .ok () ↔ job.market = venue.market.id ∧ nodeAgrees job = true := by
  unfold auditJob
  by_cases owned : job.market = venue.market.id <;>
    by_cases agrees : nodeAgrees job <;> simp [owned, agrees]

/-- The checks of the audit, one by one. -/
theorem audit_eq_ok (venue : Venue) :
    venue.audit = .ok () ↔
      (venue.market.vault = Vault.addressOf venue.market.id ∧
        venue.vault.address = venue.market.vault) ∧
      venue.market.queue.isWellFormed = true ∧
      (∀ id ∈ venue.waitingJobs, venue.auditWaiting id = .ok ()) ∧
      venue.jobs.values.countP (·.state = .queued) = venue.waitingJobs.length ∧
      (∀ job ∈ venue.jobs.values, venue.auditJob job = .ok ()) ∧
      venue.escrowed? = some venue.vault.balance := by
  unfold audit
  cases owed : venue.escrowed? with
  | none =>
      simp only [Guard.refuse_eq_ok, Guard.demand_eq_ok, Guard.unit_bind_eq_ok, Guard.throw_ne_ok,
        reduceCtorEq, and_false]
  | some total =>
      simp only [List.forM_eq_forM, Guard.refuse_eq_ok, Guard.demand_eq_ok, Guard.unit_bind_eq_ok,
        Guard.forM_eq_ok, Guard.last_demand_eq_ok, not_or, not_not, Option.some.injEq]

/-- The ids of the jobs whose records say that they are queued. -/
def queuedIds (venue : Venue) : List Key :=
  (venue.jobs.values.filter (·.state = .queued)).map Job.id

section Filed

variable {venue : Venue} (filed : ∀ id job, venue.jobs.get? id = some job → job.id = id)

include filed

/-- Where records are filed under their ids, their ids are the keys. -/
theorem map_id_values : venue.jobs.values.map Job.id = venue.jobs.keys := by
  rw [KeyMap.values, KeyMap.keys, List.map_map]
  apply List.map_congr_left
  intro entry member
  exact filed entry.1 entry.2 (KeyMap.mem_entries_iff.1 member)

theorem nodup_queuedIds : venue.queuedIds.Nodup := by
  have all : (venue.jobs.values.map Job.id).Nodup := by
    rw [map_id_values filed]
    exact venue.jobs.keys_nodup
  exact all.sublist (List.filter_sublist.map Job.id)

/-- The ids that are counted are those of the queued jobs. -/
theorem mem_queuedIds {id : Key} :
    id ∈ venue.queuedIds ↔ ∃ job, venue.jobs.get? id = some job ∧ job.state = .queued := by
  simp only [queuedIds, List.mem_map, List.mem_filter, KeyMap.mem_values, decide_eq_true_eq]
  constructor
  · rintro ⟨job, ⟨⟨key, found⟩, queued⟩, rfl⟩
    have same := filed key job found
    exact ⟨job, by rw [same]; exact found, queued⟩
  · rintro ⟨job, found, queued⟩
    exact ⟨job, ⟨⟨id, found⟩, queued⟩, filed id job found⟩

/-- The queue holds exactly the queued jobs when every entry is one and there are as many. -/
theorem waiting_iff (formed : venue.market.queue.isWellFormed) :
    (∀ id, id ∈ venue.waitingJobs ↔
        ∃ job, venue.jobs.get? id = some job ∧ job.state = .queued) ↔
      (∀ id ∈ venue.waitingJobs, ∃ job, venue.jobs.get? id = some job ∧ job.state = .queued) ∧
        venue.jobs.values.countP (·.state = .queued) = venue.waitingJobs.length := by
  have distinct : venue.waitingJobs.Nodup := Queue.nodup_entriesOf formed .job
  have counted : venue.jobs.values.countP (·.state = .queued) = venue.queuedIds.length := by
    rw [queuedIds, List.length_map, List.countP_eq_length_filter]
  simp only [counted, ← mem_queuedIds filed]
  constructor
  · intro same
    have permuted : venue.waitingJobs.Perm venue.queuedIds :=
      (List.perm_ext_iff_of_nodup distinct (nodup_queuedIds filed)).2 same
    exact ⟨fun id => (same id).1, permuted.length_eq.symm⟩
  · rintro ⟨included, same⟩
    have permuted : venue.waitingJobs.Perm venue.queuedIds :=
      (List.subperm_of_subset distinct included).perm_of_length_le (Nat.le_of_eq same)
    exact fun id => permuted.mem_iff

/-- The audit passes exactly the ledgers whose parts agree. -/
theorem audit_eq_ok_iff_sound : venue.audit = .ok () ↔ venue.Sound := by
  rw [audit_eq_ok]
  simp only [auditWaiting_eq_ok, auditJob_eq_ok, escrowed?_eq_some, KeyMap.mem_values]
  constructor
  · rintro ⟨⟨named, vaultNamed⟩, formed, waits, counted, agree, escrowed⟩
    exact {
      named, vaultNamed, formed, escrowed
      waiting := (waiting_iff filed formed).2 ⟨waits, counted⟩
      filed := fun id job found => ⟨filed id job found, (agree job ⟨id, found⟩).1⟩
      bound := fun id job found => (agree job ⟨id, found⟩).2 }
  · intro sound
    have waits := (waiting_iff filed sound.formed).1 sound.waiting
    refine ⟨⟨sound.named, sound.vaultNamed⟩, sound.formed, waits.1, waits.2, ?_, sound.escrowed⟩
    rintro job ⟨id, found⟩
    exact ⟨(sound.filed id job found).2, sound.bound id job found⟩

end Filed

end Venue

end ComputeMarket
