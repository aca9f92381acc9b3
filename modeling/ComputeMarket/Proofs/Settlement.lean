import ComputeMarket.Event
import ComputeMarket.Job

/-
This file describes the moves of a job: the start on a node, and the three ways in which an open
job is settled.
-/

namespace ComputeMarket

namespace JobState

/-- Only a queued job can be started. -/
theorem canBecome_running {state : JobState} : state.canBecome .running = true ↔ state = .queued := by
  cases state <;> decide

theorem canBecome_completed {state : JobState} :
    state.canBecome .completed = true ↔ state = .running := by
  cases state <;> decide

theorem canBecome_stopped {state : JobState} : state.canBecome .stopped = true ↔ state = .queued := by
  cases state <;> decide

theorem canBecome_timedOut {state : JobState} :
    state.canBecome .timedOut = true ↔ state.isOpen = true := by
  cases state <;> decide

/-- The open states are queued and running. -/
theorem isOpen_iff {state : JobState} :
    state.isOpen = true ↔ state = .queued ∨ state = .running := by
  cases state <;> decide

end JobState

namespace Job

variable {job next : Job} {target : JobState} {node : Key} {now : Int64} {result : Digest}

theorem allow_of_canBecome (possible : job.state.canBecome target = true) :
    job.allow target = .ok () := by
  rw [allow, if_pos possible]

theorem canBecome_of_allow {done : Unit} (allowed : job.allow target = .ok done) :
    job.state.canBecome target = true := by
  unfold allow at allowed
  split at allowed
  · assumption
  · simp at allowed

/-- A change of state is refused for one cause only, that it is impossible. -/
theorem allow_eq_error {cause : MarketError} (refused : job.allow target = .error cause) :
    cause = .invalidTransition job.id job.state target ∧ job.state.canBecome target = false := by
  unfold allow at refused
  split at refused
  · cases refused
  · rename_i impossible
    cases refused
    exact ⟨rfl, Bool.eq_false_iff.2 impossible⟩

/-- A queued job without a node starts on the node that it is given. -/
theorem start_of_queued (queued : job.state = .queued) (free : job.node = none) (node : Key)
    (now : Int64) :
    job.start node now =
      .ok { job with node := some node, state := .running, started := now } := by
  have allowed := allow_of_canBecome (JobState.canBecome_running.2 queued)
  simp [start, allowed, free, bind, Except.bind, pure, Except.pure]

theorem complete_of_running (running : job.state = .running) (result : Digest) (now : Int64) :
    job.complete result now = .ok { job with result, state := .completed, ended := now } := by
  have allowed := allow_of_canBecome (JobState.canBecome_completed.2 running)
  simp [complete, allowed, bind, Except.bind, pure, Except.pure]

theorem stop_of_queued (queued : job.state = .queued) (now : Int64) :
    job.stop now = .ok { job with state := .stopped, ended := now } := by
  have allowed := allow_of_canBecome (JobState.canBecome_stopped.2 queued)
  simp [stop, allowed, bind, Except.bind, pure, Except.pure]

theorem timeOut_of_isOpen (unsettled : job.isOpen = true) (now : Int64) :
    job.timeOut now = .ok { job with state := .timedOut, ended := now } := by
  have allowed := allow_of_canBecome (JobState.canBecome_timedOut.2 unsettled)
  simp [timeOut, allowed, bind, Except.bind, pure, Except.pure]

/-- A job is expired exactly if it has a deadline and the deadline has passed. -/
theorem isExpired_iff {expiry : Expiry} :
    job.isExpired now expiry = true ↔
      ∃ deadline, job.deadline expiry = some deadline ∧ deadline < now := by
  unfold isExpired
  cases job.deadline expiry <;> simp

/-- A job that is settled has no deadline. -/
theorem deadline_eq_none (ended : job.isOpen = false) (expiry : Expiry) :
    job.deadline expiry = none := by
  unfold isOpen at ended
  unfold deadline
  cases state : job.state with
  | queued =>
      rw [state] at ended
      cases ended
  | running =>
      rw [state] at ended
      cases ended
  | completed => rfl
  | stopped => rfl
  | timedOut => rfl

/-- An open job is settled in one of three ways. Each names the record afterwards, the account
that is paid the price, and the event. -/
inductive Settlement (config : Config) (now : Int64) (job : Job) : Job → Key → Event → Prop
  | completed (node : Key) (result : Digest) (running : job.state = .running)
      (bound : job.node = some node) (delivered : result ≠ .zero)
      (onTime : (config.enforceDeadline && job.isExpired now config.expiry) = false) :
      Settlement config now job { job with result, state := .completed, ended := now } node
        (.jobCompleted job.market job.id node result job.price now)
  | stopped (queued : job.state = .queued) :
      Settlement config now job { job with state := .stopped, ended := now } job.client
        (.jobStopped job.market job.id job.client job.price now)
  | timedOut (unsettled : job.isOpen = true) (late : job.isExpired now config.expiry = true) :
      Settlement config now job { job with state := .timedOut, ended := now } job.client
        (.jobTimedOut job.market job.id job.client job.node job.price now)

namespace Settlement

variable {config : Config} {ended : Job} {payee : Key} {event : Event}

/-- Only an open job is settled. -/
theorem isOpen (settlement : job.Settlement config now ended payee event) : job.isOpen = true := by
  cases settlement with
  | completed _ _ running => rw [Job.isOpen, running]; rfl
  | stopped queued => rw [Job.isOpen, queued]; rfl
  | timedOut unsettled => exact unsettled

/-- A settled job is not open. -/
theorem not_isOpen (settlement : job.Settlement config now ended payee event) :
    ended.isOpen = false := by
  cases settlement <;> rfl

theorem state_ne_queued (settlement : job.Settlement config now ended payee event) :
    ended.state ≠ .queued := by
  cases settlement <;> exact JobState.noConfusion

/-- A settlement keeps whose job it is. -/
theorem same_names (settlement : job.Settlement config now ended payee event) :
    ended.id = job.id ∧ ended.market = job.market := by
  cases settlement <;> exact ⟨rfl, rfl⟩

/-- A settlement does not change the price. -/
theorem same_price (settlement : job.Settlement config now ended payee event) :
    ended.price = job.price := by
  cases settlement <;> rfl

/-- A job that waits has only its client to be paid. -/
theorem payee_of_queued (settlement : job.Settlement config now ended payee event)
    (queued : job.state = .queued) : payee = job.client := by
  cases settlement with
  | completed _ _ running =>
      rw [queued] at running
      cases running
  | stopped => rfl
  | timedOut => rfl

end Settlement

end Job

end ComputeMarket
