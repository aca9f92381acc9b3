import ComputeMarket.Proofs.Conservation
import ComputeMarket.Proofs.Store.Record

/-
This file proves that the reputation of a node is the sum of what it did: the jobs of all markets
that it completed or let run out of time, and the prices that it earned.
-/

namespace ComputeMarket

namespace Job

/-- One for a job that a node completed, nothing for any other. -/
def completedBy (node : Key) (job : Job) : Nat :=
  if job.node = some node ∧ job.state = .completed then 1 else 0

/-- One for a job that ran out of time on a node, nothing for any other. -/
def timedOutBy (node : Key) (job : Job) : Nat :=
  if job.node = some node ∧ job.state = .timedOut then 1 else 0

/-- The weights of completed jobs count the jobs that a node completed. -/
theorem sum_completedBy (node : Key) (jobs : List Job) :
    (jobs.map (completedBy node)).sum =
      jobs.countP fun job => job.node = some node ∧ job.state = .completed := by
  unfold completedBy
  rw [List.sum_map_ite, List.countP_eq_length_filter]
  simp

theorem sum_timedOutBy (node : Key) (jobs : List Job) :
    (jobs.map (timedOutBy node)).sum =
      jobs.countP fun job => job.node = some node ∧ job.state = .timedOut := by
  unfold timedOutBy
  rw [List.sum_map_ite, List.countP_eq_length_filter]
  simp

theorem sum_earnedBy (node : Key) (jobs : List Job) :
    (jobs.map (earnedBy node)).sum =
      ((jobs.filter fun job => job.node = some node ∧ job.state = .completed).map
        fun job => job.price.base).sum := by
  unfold earnedBy
  rw [List.sum_map_ite]
  simp

/-- A weight counts settled jobs when open jobs weigh nothing. -/
def CountsSettled (weight : Job → Nat) : Prop := ∀ job, job.isOpen = true → weight job = 0

/-- A weight without queued and running jobs counts settled jobs. -/
theorem countsSettled_of_state {weight : Job → Nat}
    (idle : ∀ job, job.state = .queued ∨ job.state = .running → weight job = 0) :
    CountsSettled weight :=
  fun job unsettled => idle job (JobState.isOpen_iff.1 unsettled)

/-- An open job is not completed. -/
theorem countsSettled_completedBy (node : Key) : CountsSettled (completedBy node) := by
  apply countsSettled_of_state
  rintro job (queued | running) <;> simp [completedBy, *]

theorem countsSettled_timedOutBy (node : Key) : CountsSettled (timedOutBy node) := by
  apply countsSettled_of_state
  rintro job (queued | running) <;> simp [timedOutBy, *]

theorem countsSettled_earnedBy (node : Key) : CountsSettled (earnedBy node) := by
  apply countsSettled_of_state
  rintro job (queued | running) <;> simp [earnedBy, *]

end Job

/-- What is known of a node tells how many jobs it completed and let run out of time and what it
earned, each up to the largest number. Nothing is known of a node without such jobs. -/
structure Reputation.Sums (known : Option Reputation) (completed timedOut earned : Nat) : Prop where
  unknown : known = none ↔ completed = 0 ∧ timedOut = 0
  completed : (known.getD .fresh).completed.value = min completed 0xffffffffffffffff
  timedOut : (known.getD .fresh).timedOut.value = min timedOut 0xffffffffffffffff
  earned : (known.getD .fresh).revenue.base = min earned 0xffffffffffffffff

/-- Revenue that exceeds the largest amount stays there. -/
theorem Amount.base_add?_getD (left right : Amount) :
    ((left.add? right).getD .largest).base = min (left.base + right.base) 0xffffffffffffffff := by
  cases sum : left.add? right with
  | none =>
      have large := Amount.add?_eq_none.1 sum
      change 0xffffffffffffffff = _
      omega
  | some total =>
      have exact := Amount.add?_eq_some.1 sum
      have bounded := total.base_lt
      change total.base = _
      omega

namespace Reputation.Sums

variable {known : Option Reputation} {completed timedOut earned : Nat}

/-- Nothing is known of a node without settled jobs. -/
theorem none : Sums none 0 0 0 := ⟨by simp, rfl, rfl, rfl⟩

/-- One more completed job adds one to its count and its price to the earnings. -/
theorem afterCompletion (sums : Sums known completed timedOut earned) (seconds : Count)
    (price : Amount) (now : Int64) :
    Sums (some ((known.getD .fresh).afterCompletion seconds price now)) (completed + 1) timedOut
      (earned + price.base) := by
  refine ⟨by simp, ?_, sums.timedOut, ?_⟩
  · have before := sums.completed
    simp only [Option.getD_some, Reputation.afterCompletion, Count.next, Count.value_ofNat]
    omega
  · have before := sums.earned
    simp only [Option.getD_some, Reputation.afterCompletion, Amount.base_add?_getD]
    omega

/-- One more late job adds one to its count and nothing else. -/
theorem afterTimeout (sums : Sums known completed timedOut earned) (now : Int64) :
    Sums (some ((known.getD .fresh).afterTimeout now)) completed (timedOut + 1) earned := by
  refine ⟨by simp, sums.completed, ?_, sums.earned⟩
  have before := sums.timedOut
  simp only [Option.getD_some, Reputation.afterTimeout, Count.next, Count.value_ofNat]
  omega

end Reputation.Sums

/-- Reputations that are not kept do not change. -/
theorem Config.rateEvent_untracked {config : Config} (untracked : config.trackReputation = false)
    (now : Int64) (jobs : KeyMap Job) (event : Event) (reputations : KeyMap Reputation) :
    config.rateEvent now jobs event reputations = reputations := by
  have unrated (node : Key) (update : Reputation → Reputation) :
      config.rate node update reputations = reputations := by
    simp [rate, untracked]
  cases event with
  | jobCompleted => simp only [rateEvent, unrated]
  | jobTimedOut market job client node => cases node <;> simp [rateEvent, rateTimeout, unrated]
  | _ => rfl

/-- A settlement adds to the reputations what the record that it leaves adds to the sums. -/
theorem Job.Settlement.rated {config : Config} {now : Int64} {job ended : Job} {payee : Key}
    {event : Event} (tracked : config.trackReputation = true)
    (settlement : job.Settlement config now ended payee event) (jobs : KeyMap Job)
    {reputations : KeyMap Reputation} {node : Key} {completed timedOut earned : Nat}
    (sums : Reputation.Sums (reputations.get? node) completed timedOut earned) :
    Reputation.Sums ((config.rateEvent now jobs event reputations).get? node)
      (completed + ended.completedBy node) (timedOut + ended.timedOutBy node)
      (earned + ended.earnedBy node) := by
  cases settlement with
  | completed _ result running bound =>
      simp only [Config.rateEvent, Config.rate, tracked, if_true, KeyMap.get?_insert]
      by_cases same : payee = node
      · subst same
        simpa [Job.completedBy, Job.timedOutBy, Job.earnedBy, bound] using
          sums.afterCompletion _ job.price now
      · simpa [Job.completedBy, Job.timedOutBy, Job.earnedBy, bound, same] using sums
  | stopped queued =>
      simpa [Config.rateEvent, Job.completedBy, Job.timedOutBy, Job.earnedBy] using sums
  | timedOut unsettled late =>
      cases bound : job.node with
      | none =>
          simpa [Config.rateEvent, Config.rateTimeout, Job.completedBy, Job.timedOutBy,
            Job.earnedBy, bound] using sums
      | some host =>
          simp only [Config.rateEvent, Config.rateTimeout, Config.rate, tracked, if_true,
            KeyMap.get?_insert]
          by_cases same : host = node
          · subst same
            simpa [Job.completedBy, Job.timedOutBy, Job.earnedBy, bound] using
              sums.afterTimeout now
          · simpa [Job.completedBy, Job.timedOutBy, Job.earnedBy, bound, same] using sums

namespace Desk

variable {config : Config} {now : Int64} {desk after : Desk} {event : Event}

/-- Only a settlement is rated, and it alone changes a count of settled jobs. -/
theorem Step.rated_cases (step : Step config now desk event after) :
    ((∀ jobs reputations, config.rateEvent now jobs event reputations = reputations) ∧
        ∀ weight, Job.CountsSettled weight →
          after.venue.jobs.total weight = desk.venue.jobs.total weight) ∨
      ∃ (job ended : Job) (payee : Key), job.Settlement config now ended payee event ∧
        ∀ weight, Job.CountsSettled weight →
          after.venue.jobs.total weight = desk.venue.jobs.total weight + weight ended := by
  cases step with
  | nodeQueued => exact .inl ⟨fun _ _ => rfl, fun _ _ => rfl⟩
  | nodeDelisted => exact .inl ⟨fun _ _ => rfl, fun _ _ => rfl⟩
  | headMatched node waiting queue submitted recorded queued free =>
      refine .inl ⟨fun _ _ => rfl, ?_⟩
      intro weight counts
      let started : Job := { waiting with node := some node, state := .running, started := now }
      have before : weight waiting = 0 := counts waiting (JobState.isOpen_iff.2 (.inl queued))
      have afterwards : weight started = 0 := counts started rfl
      exact KeyMap.total_insert_same weight recorded (afterwards.trans before.symm)
  | settled job ended payee _ rest total recorded settlement =>
      refine .inr ⟨job, ended, payee, settlement, ?_⟩
      intro weight counts
      have moved := KeyMap.total_insert_of_get? weight ended recorded
      have before : weight job = 0 := counts job settlement.isOpen
      change (desk.venue.jobs.insert job.id ended).total weight = _
      omega

/-- A new job is open. -/
theorem Entry.total_eq {client : Key} {request : JobRequest} {capacity : Count}
    {admission : JobAdmission}
    (entry : Entry client request capacity now desk admission event after) {weight : Job → Nat}
    (counts : Job.CountsSettled weight) :
    after.venue.jobs.total weight = desk.venue.jobs.total weight := by
  have added (job : Job) (fresh : desk.venue.jobs.get? job.id = none) (waits : job.isOpen = true) :
      (desk.venue.jobs.insert job.id job).total weight = desk.venue.jobs.total weight := by
    rw [KeyMap.total_insert_new weight job fresh, counts job waits, Nat.add_zero]
  cases entry with
  | queued place queue rest total admissible => exact added _ admissible.fresh rfl
  | matched node queue rest total admissible => exact added _ admissible.fresh rfl

end Desk

namespace Store

variable {now : Int64} {start store after : Store} {seen : Change} {node : Key}

/-- The jobs of all markets. -/
def jobs (store : Store) : List Job := store.venues.values.flatMap fun venue => venue.jobs.values

/-- The sum of a weight over the jobs of all markets. -/
def weigh (store : Store) (weight : Job → Nat) : Nat :=
  store.venues.total fun venue => venue.jobs.total weight

/-- The weight of a store is the sum over the jobs of all markets. -/
theorem weigh_eq (store : Store) (weight : Job → Nat) :
    store.weigh weight = (store.jobs.map weight).sum := by
  rw [jobs, List.map_flatMap, List.flatMap, List.sum_flatten, List.map_map]
  rfl

/-- A market that is put back changes the weight of a store by as much as its own. -/
theorem weigh_of_insert {market : Key} {venue next : Venue} (weight : Job → Nat) (more : Nat)
    (found : store.venues.get? market = some venue)
    (venues : after.venues = store.venues.insert market next)
    (moved : next.jobs.total weight = venue.jobs.total weight + more) :
    after.weigh weight = store.weigh weight + more := by
  have put := KeyMap.total_insert_of_get? (fun venue : Venue => venue.jobs.total weight) next found
  rw [weigh, weigh, venues]
  omega

/-- Only a settlement is rated, and it alone changes a count of settled jobs. -/
theorem Step.rated_cases (step : Step now store seen after) :
    (after.reputations = store.reputations ∧
        ∀ weight, Job.CountsSettled weight → after.weigh weight = store.weigh weight) ∨
      ∃ (jobs : KeyMap Job) (job ended : Job) (payee : Key) (event : Event),
        job.Settlement store.config now ended payee event ∧
        after.reputations = store.config.rateEvent now jobs event store.reputations ∧
        ∀ weight, Job.CountsSettled weight →
          after.weigh weight = store.weigh weight + weight ended := by
  cases step with
  | paid => exact .inl ⟨rfl, fun _ _ => rfl⟩
  | opened id authority params fresh =>
      refine .inl ⟨rfl, ?_⟩
      intro weight counts
      exact KeyMap.total_insert_new (fun venue : Venue => venue.jobs.total weight)
        (Venue.new id authority params) fresh
  | entered market client request venue admission event desk found unused entry =>
      refine .inl ⟨rfl, ?_⟩
      intro weight counts
      exact weigh_of_insert weight 0 found rfl (entry.total_eq counts)
  | traded market venue event desk found step =>
      obtain ⟨unrated, same⟩ | ⟨job, ended, payee, settlement, more⟩ := step.rated_cases
      · refine .inl ⟨unrated _ _, ?_⟩
        intro weight counts
        exact weigh_of_insert weight 0 found rfl (same weight counts)
      · refine .inr ⟨desk.venue.jobs, job, ended, payee, event, settlement, rfl, ?_⟩
        intro weight counts
        exact weigh_of_insert weight (weight ended) found rfl (more weight counts)

/-- The reputation of a node sums up the jobs of all markets. -/
def Rated (store : Store) (node : Key) : Prop :=
  Reputation.Sums (store.reputations.get? node) (store.weigh (Job.completedBy node))
    (store.weigh (Job.timedOutBy node)) (store.weigh (Job.earnedBy node))

/-- Every change keeps the reputation of a node in step with the jobs. -/
theorem Step.rated (tracked : store.config.trackReputation = true) (rated : store.Rated node)
    (step : Step now store seen after) : after.Rated node := by
  have completed := Job.countsSettled_completedBy node
  have timedOut := Job.countsSettled_timedOutBy node
  have earned := Job.countsSettled_earnedBy node
  unfold Rated
  obtain ⟨kept, same⟩ | ⟨jobs, job, ended, payee, event, settlement, changed, more⟩ :=
    step.rated_cases
  · rw [kept, same _ completed, same _ timedOut, same _ earned]
    exact rated
  · rw [changed, more _ completed, more _ timedOut, more _ earned]
    exact settlement.rated tracked jobs rated

/-- Reputations stay in step with the jobs, whatever is done. -/
theorem Sound.rated_after (sound : start.Sound) (tracked : start.config.trackReputation = true)
    (rated : start.Rated node) (moves : List Move) : (start.after moves).Rated node := by
  have holds : start.config = start.config ∧ start.Rated node := ⟨rfl, rated⟩
  refine (sound.invariant_after (fun store => store.config = start.config ∧ store.Rated node) holds
    ?_ ?_ moves).2
  · intro store kept
    exact kept
  · rintro now store after seen - ⟨same, rated⟩ step
    refine ⟨step.config.trans same, step.rated ?_ rated⟩
    rw [same]
    exact tracked

/-- Reputations that are not kept never change. -/
theorem Sound.reputations_untracked (sound : start.Sound)
    (untracked : start.config.trackReputation = false) (moves : List Move) :
    (start.after moves).reputations = start.reputations := by
  have holds : start.config = start.config ∧ start.reputations = start.reputations := ⟨rfl, rfl⟩
  refine (sound.invariant_after
    (fun store => store.config = start.config ∧ store.reputations = start.reputations) holds
    ?_ ?_ moves).2
  · intro store kept
    exact kept
  · rintro now store after seen - ⟨same, kept⟩ step
    refine ⟨step.config.trans same, ?_⟩
    rw [← kept]
    obtain ⟨unrated, -⟩ | ⟨jobs, job, ended, payee, event, -, changed, -⟩ := step.rated_cases
    · exact unrated
    · rw [changed]
      exact Config.rateEvent_untracked (by rw [same, untracked]) now jobs event _

/-- In a store that starts empty and keeps reputations, nothing is known of a node as long as no
job that it was bound to is completed or timed out. After that its record tells how many of these
jobs were completed and how many ran out of time in all markets together, and what it earned with
them, each up to the largest number. Where reputations are not kept, they never change. -/
theorem reputation_sums_history {start : Store} (initial : start.Initial) (moves : List Move) :
    (∀ config, new config = .ok start → config.trackReputation = true → ∀ node,
      ((start.after moves).reputation? node = none ↔
        ∀ job ∈ (start.after moves).jobs, job.node = some node →
          job.state ≠ .completed ∧ job.state ≠ .timedOut) ∧
      ∀ reputation, (start.after moves).reputation? node = some reputation →
        reputation.completed.value =
          min ((start.after moves).jobs.countP fun job =>
            job.node = some node ∧ job.state = .completed) 0xffffffffffffffff ∧
        reputation.timedOut.value =
          min ((start.after moves).jobs.countP fun job =>
            job.node = some node ∧ job.state = .timedOut) 0xffffffffffffffff ∧
        reputation.revenue.base =
          min ((((start.after moves).jobs.filter fun job =>
            job.node = some node ∧ job.state = .completed).map fun job => job.price.base).sum)
            0xffffffffffffffff) ∧
    (start.config.trackReputation = false →
      (start.after moves).reputations = start.reputations) := by
  refine ⟨?_, fun untracked => initial.sound.reputations_untracked untracked moves⟩
  intro config opened tracked node
  obtain ⟨-, same⟩ := Guard.unit_bind_eq_ok.1 opened
  cases same
  have rated : (empty config).Rated node := Reputation.Sums.none
  have sums := (sound_of_new opened).rated_after tracked rated moves
  unfold Rated at sums
  simp only [weigh_eq, Job.sum_completedBy, Job.sum_timedOutBy, Job.sum_earnedBy] at sums
  constructor
  · rw [reputation?, sums.unknown, List.countP_eq_zero, List.countP_eq_zero, ← forall₂_and]
    simp only [decide_eq_true_eq, not_and, ← imp_and, ne_eq]
  · intro reputation known
    rw [reputation?] at known
    rw [known] at sums
    exact ⟨sums.completed, sums.timedOut, sums.earned⟩

/-- A history in which a node completes a job in one market and lets one run out of time in another,
where a job that waits runs out of time as well. -/
def career : List Move :=
  let authority := Key.ofBytes [1]
  let client := Key.ofBytes [2]
  let node := Key.ofBytes [3]
  let market (number : UInt64) := Market.idOf authority number
  let request (id : UInt8) : JobRequest := ⟨Key.ofBytes [id], ⟨Word.ofNumber 5⟩, 8, .any⟩
  [.perform 0 (.createMarket authority ⟨.ofTokens 2, 60, .zero⟩),
   .perform 0 (.createMarket authority ⟨.ofTokens 3, 60, .zero⟩),
   .perform 0 (.deposit client (.ofTokens 9)),
   .perform 1 (.listNode (market 0) node .zero),
   .perform 1 (.listNode (market 1) node .zero),
   .perform 2 (.createJob (market 0) client (request 4)),
   .perform 2 (.createJob (market 1) client (request 5)),
   .perform 3 (.createJob (market 1) client (request 6)),
   .restart,
   .perform 9 (.finishJob (Key.ofBytes [4]) node ⟨Word.ofNumber 6⟩),
   .perform 90 (.sweep (market 1))]

theorem reputation_sums_history_career :
    (empty {}).Initial ∧ new {} = .ok (empty {}) ∧
    (∃ reputation, ((empty {}).after career).reputation? (Key.ofBytes [3]) = some reputation ∧
      reputation.completed.value = 1 ∧ reputation.timedOut.value = 1 ∧
      reputation.revenue.base = 2000000) ∧
    ((empty {trackReputation := false}).after career).reputations = .empty := by
  have opened : new {} = .ok (empty {}) := rfl
  have initial : (empty {}).Initial := .opened {} opened
  have untracked : (empty {trackReputation := false}).Initial :=
    .opened {trackReputation := false} rfl
  have rated := (reputation_sums_history initial career).1 {} opened rfl (Key.ofBytes [3])
  have facts : (((empty {}).after career).reputation? (Key.ofBytes [3])).isSome = true ∧
      (((empty {}).after career).jobs.countP fun job =>
        job.node = some (Key.ofBytes [3]) ∧ job.state = .completed) = 1 ∧
      (((empty {}).after career).jobs.countP fun job =>
        job.node = some (Key.ofBytes [3]) ∧ job.state = .timedOut) = 1 ∧
      ((((empty {}).after career).jobs.filter fun job =>
        job.node = some (Key.ofBytes [3]) ∧ job.state = .completed).map
          fun job => job.price.base).sum = 2000000 := by
    decide +kernel
  obtain ⟨known, completedJobs, timedOutJobs, prices⟩ := facts
  obtain ⟨reputation, found⟩ := Option.isSome_iff_exists.1 known
  obtain ⟨completed, timedOut, revenue⟩ := rated.2 reputation found
  rw [completedJobs] at completed
  rw [timedOutJobs] at timedOut
  rw [prices] at revenue
  exact ⟨initial, opened, ⟨reputation, found, completed, timedOut, revenue⟩,
    (reputation_sums_history untracked career).2 rfl⟩

end Store

end ComputeMarket
