import ComputeMarket.Proofs.Lifecycle
import ComputeMarket.Proofs.Refund

/-
This file proves that the deadline of a job splits time exactly: up to it the bound node is paid for
a result, past it the client is refunded, and no moment is on both sides or on neither.
-/

namespace ComputeMarket

namespace Time

/-- The seconds from one moment to another, in exact numbers. -/
def elapsed (start now : Int64) : Int := now.toInt - start.toInt

/-- A moment comes after a deadline exactly when more than the span has passed, also where the
deadline is held at the end of the range. -/
theorem after_lt_iff {span : Int64} (forward : 0 < span) (start now : Int64) :
    after start span < now ↔ span.toInt < elapsed start now := by
  have positive : 0 < span.toInt := Int64.lt_iff_toInt_lt.1 forward
  have least := Int64.le_toInt start
  have greatest := Int64.toInt_lt now
  rw [Int64.lt_iff_toInt_lt, toInt_after, elapsed]
  omega

end Time

namespace Job

variable {config : Config} {now told : Int64} {job ended : Job} {payee market id node : Key}
  {price : Amount} {expiry : Expiry}

/-- A running job is expired exactly if more time has passed since its start than it has. -/
theorem isExpired_of_running (running : job.state = .running) (forward : 0 < job.timeout) :
    job.isExpired now expiry = true ↔ job.timeout.toInt < Time.elapsed job.started now := by
  rw [← Time.after_lt_iff forward]
  unfold isExpired deadline
  rw [running]
  simp

/-- A queued job is expired exactly if such jobs expire at all and more time has passed since its
creation than it has. -/
theorem isExpired_of_queued (queued : job.state = .queued) (forward : 0 < job.timeout) :
    job.isExpired now expiry = true ↔
      expiry = .queuedAndRunning ∧ job.timeout.toInt < Time.elapsed job.created now := by
  rw [← Time.after_lt_iff forward]
  unfold isExpired deadline
  rw [queued]
  cases expiry <;> simp

/-- Only an open job has a deadline to be past. -/
theorem isOpen_of_isExpired (late : job.isExpired now expiry = true) : job.isOpen = true := by
  obtain ⟨deadline, due, -⟩ := isExpired_iff.1 late
  rw [← Bool.not_eq_false]
  intro ended
  rw [deadline_eq_none ended] at due
  cases due

/-- A job is completed by its own node, with a result and in time. -/
theorem Settlement.of_jobCompleted {result : Digest} (settlement :
      job.Settlement config now ended payee (.jobCompleted market id node result price told)) :
    job.state = .running ∧ job.node = some node ∧ result ≠ .zero ∧
      (config.enforceDeadline && job.isExpired now config.expiry) = false ∧ payee = node := by
  cases settlement with
  | completed node result running bound delivered onTime =>
      exact ⟨running, bound, delivered, onTime, rfl⟩

/-- Only an expired job is timed out, and its client is paid. -/
theorem Settlement.isExpired_of_jobTimedOut {bound : Option Key} (settlement :
      job.Settlement config now ended payee (.jobTimedOut market id node bound price told)) :
    job.isExpired now config.expiry = true ∧ payee = job.client := by
  cases settlement with
  | timedOut unsettled late => exact ⟨late, rfl⟩

end Job

namespace Store

/-- The balance of an account has room for an amount. -/
def HasRoom (store : Store) (account : Key) (amount : Amount) : Prop :=
  (store.balance account).base + amount.base ≤ 0xffffffffffffffff

variable {store after : Store} {now : Int64} {market id node : Key} {job : Job} {result : Digest}
  {seen : Change}

/-- The only job that a call settles is the one on record, and the payee has room for its price. -/
theorem Sound.settled_of_told (sound : store.Sound) (recorded : store.record? market id = some job)
    {event : Event} (settles : event.settledJob? = some id)
    (step : Step now store (.told event) after) :
    ∃ ended payee, job.Settlement store.config now ended payee event ∧
      store.HasRoom payee job.price := by
  obtain ⟨place, known, ended, payee, found, settlement, -, paid⟩ := step.settlement settles
  obtain ⟨rfl, rfl⟩ := sound.market_unique recorded found
  have room := (after.balance payee).base_lt
  rw [paid] at room
  exact ⟨ended, payee, settlement, Nat.le_of_lt_succ room⟩

/-- A result is accepted from the node of a running job, in time where that is asked for, as long
as there is room for the pay. -/
theorem Sound.accepts_finish_iff (sound : store.Sound)
    (recorded : store.record? market id = some job) :
    store.Accepts now (.finishJob id node result) ↔
      job.state = .running ∧ job.node = some node ∧ result ≠ .zero ∧
        (store.config.enforceDeadline && job.isExpired now store.config.expiry) = false ∧
        store.HasRoom node job.price := by
  constructor
  · rintro ⟨reply, answer⟩
    obtain ⟨changes, does, steps⟩ := steps_of_apply now sound answer
    cases does with
    | finished _ _ finished =>
        obtain ⟨ended, payee, settlement, room⟩ := sound.settled_of_told recorded rfl steps.single
        obtain ⟨running, bound, delivered, onTime, rfl⟩ := settlement.of_jobCompleted
        exact ⟨running, bound, delivered, onTime, room⟩
  · rintro ⟨running, bound, delivered, onTime, room⟩
    apply sound.accepts_of_unrefused now
    intro cause refused
    cases refused with
    | unknownMarket _ place names => cases names
    | unknownJob _ missing names unindexed =>
        cases names
        rw [sound.indexed_iff.2 ⟨job, recorded⟩] at unindexed
        cases unindexed
    | finish _ _ _ place venue _ indexed found why =>
        have known := sound.found_of_indexed recorded indexed found
        cases why with
        | unknown missing =>
            rw [known] at missing
            cases missing
        | foreign other filed unbound =>
            rw [known] at filed
            cases filed
            exact unbound bound
        | moved other filed ended =>
            rw [known] at filed
            cases filed
            exact ended running
        | empty zero => exact delivered zero
        | late other deadline filed enforced due passed =>
            rw [known] at filed
            cases filed
            rw [enforced, Job.isExpired_iff.2 ⟨deadline, due, passed⟩] at onTime
            cases onTime
        | overflow other filed large =>
            rw [known] at filed
            cases filed
            exact absurd room (Nat.not_le.2 large)

/-- Anybody may time out a job past its deadline, as long as there is room for the refund. -/
theorem Sound.accepts_timeout_iff (sound : store.Sound)
    (recorded : store.record? market id = some job) :
    store.Accepts now (.timeoutJob id) ↔
      job.isExpired now store.config.expiry = true ∧ store.HasRoom job.client job.price := by
  constructor
  · rintro ⟨reply, answer⟩
    obtain ⟨changes, does, steps⟩ := steps_of_apply now sound answer
    cases does with
    | timedOut ended =>
        obtain ⟨_, payee, settlement, room⟩ := sound.settled_of_told recorded rfl steps.single
        obtain ⟨late, rfl⟩ := settlement.isExpired_of_jobTimedOut
        exact ⟨late, room⟩
  · rintro ⟨late, room⟩
    obtain ⟨deadline, due, passed⟩ := Job.isExpired_iff.1 late
    apply sound.accepts_of_unrefused now
    intro cause refused
    have large := (sound.overflow_of_timeout recorded due passed refused).2
    exact absurd room (Nat.not_le.2 large)

end Store

namespace Venue

/-- Deadlines lie ahead: the span that a market gives its jobs is positive, and so is the span that
every job was given. -/
structure Timed (venue : Venue) : Prop where
  terms : 0 < venue.market.params.timeout
  jobs : ∀ id job, venue.jobs.get? id = some job → 0 < job.timeout

end Venue

namespace Desk

variable {config : Config} {now : Int64} {desk after : Desk} {event : Event}

/-- Every step keeps the times of jobs positive. -/
theorem Step.timed (sound : desk.venue.Sound) (timed : desk.venue.Timed)
    (step : Step config now desk event after) : after.venue.Timed where
  terms := by
    rw [step.same_terms.2.2.2]
    exact timed.terms
  jobs id next found := by
    obtain ⟨job, recorded, turn⟩ := step.origin sound found
    rw [turn.advances.timeout]
    exact timed.jobs id job recorded

/-- A new job has the span of its market. -/
theorem Entry.timed {client : Key} {request : JobRequest} {capacity : Count}
    {admission : JobAdmission} (timed : desk.venue.Timed)
    (entry : Entry client request capacity now desk admission event after) :
    after.venue.Timed where
  terms := by
    rw [entry.same_terms.2.2.2]
    exact timed.terms
  jobs id next found := by
    have forward : 0 < desk.venue.market.params.timeout := timed.terms
    cases entry with
    | queued => exact KeyMap.forall_get?_insert timed.jobs forward id next found
    | matched => exact KeyMap.forall_get?_insert timed.jobs forward id next found

end Desk

namespace Store

/-- The deadlines of all markets lie ahead. -/
def Timed (store : Store) : Prop :=
  ∀ market venue, store.venues.get? market = some venue → venue.Timed

variable {store after : Store} {now : Int64} {market id node : Key} {job : Job} {seen : Change}

theorem Timed.insert (timed : store.Timed) {venue : Venue} (new : venue.Timed)
    (venues : after.venues = store.venues.insert market venue) : after.Timed := by
  unfold Store.Timed
  rw [venues]
  exact KeyMap.forall_get?_insert timed new

/-- Every change of a store keeps the times of jobs positive. -/
theorem Step.timed (sound : store.Sound) (timed : store.Timed) (step : Step now store seen after) :
    after.Timed := by
  cases step with
  | opened id authority params fresh valid =>
      have forward : 0 < params.timeout := (MarketParams.validate_eq_ok.1 valid).2
      have fresh : (Venue.new id authority params).Timed := by
        refine ⟨forward, ?_⟩
        intro job record found
        cases found
      exact timed.insert fresh rfl
  | entered market client request venue admission event desk found unused entry =>
      exact timed.insert (entry.timed (timed market venue found)) rfl
  | traded market venue event desk found step =>
      have next := step.timed (sound.ledgers market venue found) (timed market venue found)
      exact timed.insert next rfl
  | paid => exact timed

/-- No market can open with a span that is not positive, so in a store that starts empty all
deadlines lie ahead. -/
theorem timed_after {config : Config} {start : Store} (opened : new config = .ok start)
    (moves : List Move) : (start.after moves).Timed := by
  apply (sound_of_new opened).invariant_after Timed
  · obtain ⟨-, same⟩ := Guard.unit_bind_eq_ok.1 opened
    cases same
    intro market venue found
    cases found
  · intro store timed
    exact timed
  · intro now store after seen sound timed step
    exact step.timed sound timed

/-- Every job has some time. -/
theorem Timed.forward (timed : store.Timed) (recorded : store.record? market id = some job) :
    0 < job.timeout := by
  obtain ⟨venue, found, filed⟩ := record?_eq_some.1 recorded
  exact (timed market venue found).jobs id job filed

/-- The deadline of a running job divides all moments between the pay of its node and the refund of
its client. -/
structure DividesRunning (store : Store) (job : Job) (node : Key) : Prop where
  finish : ∀ now result, result ≠ .zero →
    (store.Accepts now (.finishJob job.id node result) ↔
      (store.config.enforceDeadline = true →
        Time.elapsed job.started now ≤ job.timeout.toInt) ∧ store.HasRoom node job.price)
  timeout : ∀ now, store.Accepts now (.timeoutJob job.id) ↔
    job.timeout.toInt < Time.elapsed job.started now ∧ store.HasRoom job.client job.price
  notBoth : store.config.enforceDeadline = true → ∀ now result,
    ¬ (store.Accepts now (.finishJob job.id node result) ∧ store.Accepts now (.timeoutJob job.id))
  one : store.config.enforceDeadline = true → store.HasRoom node job.price →
    store.HasRoom job.client job.price → ∀ now result, result ≠ .zero →
      store.Accepts now (.finishJob job.id node result) ∨ store.Accepts now (.timeoutJob job.id)

/-- The deadline divides the times of a running job into those of a result and those of a timeout.
-/
theorem Sound.dividesRunning (sound : store.Sound) (timed : store.Timed)
    (recorded : store.record? market id = some job) (running : job.state = .running)
    (bound : job.node = some node) : store.DividesRunning job node := by
  obtain ⟨rfl, -⟩ := sound.names recorded
  have late (now : Int64) : job.isExpired now store.config.expiry = true ↔
      job.timeout.toInt < Time.elapsed job.started now :=
    Job.isExpired_of_running running (timed.forward recorded)
  have finish (now : Int64) (result : Digest) (delivered : result ≠ .zero) :
      store.Accepts now (.finishJob job.id node result) ↔
        (store.config.enforceDeadline = true →
          Time.elapsed job.started now ≤ job.timeout.toInt) ∧ store.HasRoom node job.price := by
    rw [sound.accepts_finish_iff recorded, Bool.and_eq_false_imp, ← Bool.not_eq_true, late,
      Int.not_lt]
    exact ⟨fun accepted => accepted.2.2.2, fun inTime => ⟨running, bound, delivered, inTime⟩⟩
  have timeout (now : Int64) : store.Accepts now (.timeoutJob job.id) ↔
      job.timeout.toInt < Time.elapsed job.started now ∧ store.HasRoom job.client job.price := by
    rw [sound.accepts_timeout_iff recorded, late]
  refine ⟨finish, timeout, ?_, ?_⟩
  · rintro enforced now result ⟨finished, timedOut⟩
    obtain ⟨-, -, delivered, -, -⟩ := (sound.accepts_finish_iff recorded).1 finished
    have inTime := ((finish now result delivered).1 finished).1 enforced
    exact absurd ((timeout now).1 timedOut).1 (Int.not_lt.2 inTime)
  · intro enforced nodeRoom clientRoom now result delivered
    rw [finish now result delivered, timeout]
    obtain passed | inTime := Int.lt_or_le job.timeout.toInt (Time.elapsed job.started now)
    · exact .inr ⟨passed, clientRoom⟩
    · exact .inl ⟨fun _ => inTime, nodeRoom⟩

/-- A queued job is timed out exactly if such jobs expire, its time is over, and its client has room
for the price. -/
theorem Sound.accepts_timeout_of_queued (sound : store.Sound) (timed : store.Timed)
    (recorded : store.record? market id = some job) (queued : job.state = .queued) (now : Int64) :
    store.Accepts now (.timeoutJob job.id) ↔
      store.config.expiry = .queuedAndRunning ∧
        job.timeout.toInt < Time.elapsed job.created now ∧ store.HasRoom job.client job.price := by
  obtain ⟨rfl, -⟩ := sound.names recorded
  rw [sound.accepts_timeout_iff recorded,
    Job.isExpired_of_queued queued (timed.forward recorded), and_assoc]

/-- Whatever has been done with a store that started empty: a running job is finished by its node
up to its deadline and timed out after it, in exact seconds at every moment, as long as the price
fits the balance that receives it; with deadlines enforced never both, and one of the two where
both balances have room. A waiting job is timed out only where waiting jobs expire, and then by the
same count from its creation. -/
theorem deadline_splits_time {config : Config} {start : Store} (opened : new config = .ok start)
    (moves : List Move) :
    (start.after moves).config = config ∧
    ∀ market id job, (start.after moves).record? market id = some job →
      (∀ node, job.state = .running → job.node = some node →
        (start.after moves).DividesRunning job node) ∧
      (job.state = .queued → ∀ now,
        ((start.after moves).Accepts now (.timeoutJob job.id) ↔
          config.expiry = .queuedAndRunning ∧
            job.timeout.toInt < Time.elapsed job.created now ∧
            (start.after moves).HasRoom job.client job.price) ∧
        (config.expiry = .runningOnly →
          ¬ (start.after moves).Accepts now (.timeoutJob job.id))) := by
  have startSound := sound_of_new opened
  have sound := startSound.after moves
  have timed := timed_after opened moves
  have configured : (start.after moves).config = config := by
    rw [startSound.config_after moves, config_of_new opened]
  refine ⟨configured, ?_⟩
  intro market id job recorded
  refine ⟨fun node running bound => sound.dividesRunning timed recorded running bound, ?_⟩
  intro queued now
  have exactly := sound.accepts_timeout_of_queued timed recorded queued now
  rw [configured] at exactly
  refine ⟨exactly, ?_⟩
  intro runningOnly accepted
  have both := (exactly.1 accepted).1
  rw [runningOnly] at both
  cases both

/-- A history in which a node takes a job ten seconds before the end of time. -/
def lateStart : List Move :=
  trade.take 4 ++
    [.perform (Int64.maxValue - 10) (.listNode waitingJob.market (Key.ofBytes [3]) .zero)]

/-- The job of `lateStart` while it runs. -/
def lateJob : Job :=
  { waitingJob with
    node := some (Key.ofBytes [3]), state := .running, started := Int64.maxValue - 10 }

/-- A job that starts so late that its deadline is cut to the end of time. Even then its result is
accepted, and it cannot be timed out. -/
theorem deadline_splits_time_late_start :
    new {} = .ok (empty {}) ∧
    ((empty {}).after lateStart).record? lateJob.market lateJob.id = some lateJob ∧
    ((empty {}).after lateStart).DividesRunning lateJob (Key.ofBytes [3]) ∧
    ((empty {}).after lateStart).Accepts Int64.maxValue
      (.finishJob lateJob.id (Key.ofBytes [3]) ⟨Word.ofNumber 6⟩) ∧
    ¬ ((empty {}).after lateStart).Accepts Int64.maxValue (.timeoutJob lateJob.id) := by
  have opened : new {} = .ok (empty {}) := rfl
  have recorded : ((empty {}).after lateStart).record? lateJob.market lateJob.id =
      some lateJob := by decide +kernel
  have delivered : (⟨Word.ofNumber 6⟩ : Digest) ≠ .zero := by decide
  have inTime : Time.elapsed lateJob.started Int64.maxValue ≤ lateJob.timeout.toInt := by decide
  have room : ((empty {}).after lateStart).HasRoom (Key.ofBytes [3]) lateJob.price := by
    unfold HasRoom
    decide +kernel
  obtain ⟨configured, splits⟩ := deadline_splits_time opened lateStart
  have divides := (splits _ _ lateJob recorded).1 (Key.ofBytes [3]) rfl rfl
  have finished := (divides.finish Int64.maxValue _ delivered).2 ⟨fun _ => inTime, room⟩
  have enforced : ((empty {}).after lateStart).config.enforceDeadline = true := by
    rw [configured]
  exact ⟨opened, recorded, divides, finished,
    fun timedOut => divides.notBoth enforced _ _ ⟨finished, timedOut⟩⟩

end Store

end ComputeMarket
