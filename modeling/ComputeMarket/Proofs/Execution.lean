import ComputeMarket.Proofs.Deadline

/-
This file proves how many seconds a job is said to have run: those from its match to its end, in
exact numbers, once it is settled.
-/

namespace ComputeMarket

namespace Job

variable {config : Config} {now : Int64} {seen : Change} {job later : Job}

/-- A count holds every span between two moments. -/
theorem value_executionSeconds (job : Job) :
    (job.executionSeconds.value : Int) =
      if job.node = none then 0 else max 0 (Time.elapsed job.started job.ended) := by
  unfold executionSeconds
  cases job.node with
  | none => rfl
  | some node =>
      have first := Int64.le_toInt job.started
      have last := Int64.toInt_lt job.ended
      simp only [Option.isNone_some, Bool.false_eq_true, if_false, reduceCtorEq, Count.value_ofNat,
        Time.secondsBetween, Time.elapsed]
      omega

/-- An open job has no end, whatever turn it takes. -/
theorem Turn.ended_eq_zero (turn : job.Turn config now seen later)
    (before : job.isOpen = true → job.ended = 0) (unsettled : later.isOpen = true) :
    later.ended = 0 := by
  cases turn with
  | kept => exact before unsettled
  | started node queued => exact before (JobState.isOpen_iff.2 (.inl queued))
  | settled ended payee event settlement =>
      rw [settlement.not_isOpen] at unsettled
      cases unsettled

end Job

namespace Store

variable {store after : Store} {now : Int64} {seen : Change} {market id : Key} {job : Job}

/-- No job has an end before it is settled. -/
def Unended (store : Store) : Prop :=
  ∀ market id job, store.record? market id = some job → job.isOpen = true → job.ended = 0

/-- No change of a store gives an open job an end. -/
theorem Step.unended (sound : store.Sound) (unended : store.Unended)
    (step : Step now store seen after) : after.Unended := by
  intro market id next recorded
  obtain ⟨job, before, turn⟩ | ⟨-, -, endless⟩ := step.origin sound recorded
  · exact turn.ended_eq_zero (unended market id job before)
  · exact fun _ => endless

/-- In a store that started empty no open job has an end. -/
theorem unended_after {config : Config} {start : Store} (opened : new config = .ok start)
    (moves : List Move) : (start.after moves).Unended := by
  apply (sound_of_new opened).invariant_after Unended
  · obtain ⟨-, same⟩ := Guard.unit_bind_eq_ok.1 opened
    cases same
    intro market id job recorded
    cases recorded
  · intro store unended
    exact unended
  · intro now store after seen sound unended step
    exact step.unended sound unended

/-- Whatever has been done with a store that started empty, and whatever its clock showed: a job
that was completed or ran out of time on a node, and did not end before it started, has run for the
exact seconds between. Every other job has run for none, except that a job that was matched before
time zero and still runs has an end of zero, and is said to have run up to there. -/
theorem execution_time_exact {config : Config} {start : Store} (opened : new config = .ok start)
    (moves : List Move) (recorded : (start.after moves).record? market id = some job) :
    (job.executionSeconds.value : Int) =
      if job.node ≠ none ∧ (job.state = .completed ∨ job.state = .timedOut) ∧
          job.started ≤ job.ended then
        job.ended.toInt - job.started.toInt
      else if job.state = .running ∧ job.started < 0 then 0 - job.started.toInt
      else 0 := by
  obtain ⟨venue, found, filed⟩ := record?_eq_some.1 recorded
  have sound := ((sound_of_new opened).after moves).ledgers market venue found
  obtain ⟨free, bound⟩ := Venue.nodeAgrees_iff.1 (sound.bound id job filed)
  have unended := unended_after opened moves market id job recorded
  rw [Job.value_executionSeconds]
  by_cases none : job.node = none
  · have idle : ¬ (job.state = .running ∧ job.started < 0) :=
      fun running => bound (.inl running.1) none
    rw [if_pos none, if_neg (fun ran => ran.1 none), if_neg idle]
  · simp only [none, ne_eq, not_false_eq_true, true_and, if_false, Int64.le_iff_toInt_le,
      Int64.lt_iff_toInt_lt, Time.elapsed]
    cases state : job.state with
    | queued => exact absurd (free (.inl state)) none
    | stopped => exact absurd (free (.inr state)) none
    | running =>
        have endless : job.ended = 0 := unended (JobState.isOpen_iff.2 (.inr state))
        have zero : (0 : Int64).toInt = 0 := rfl
        simp only [endless, zero, reduceCtorEq, or_self, false_and, true_and, if_false]
        omega
    | completed =>
        simp only [true_or, true_and, reduceCtorEq, false_and, if_false]
        omega
    | timedOut =>
        simp only [or_true, true_and, reduceCtorEq, false_and, if_false]
        omega

/-- A history in which a job runs from one end of the clock to the other. -/
def wholeClock : List Move :=
  trade.take 4 ++
    [.perform (Int64.minValue + 1) (.listNode waitingJob.market (Key.ofBytes [3]) .zero),
     .perform Int64.maxValue (.finishJob waitingJob.id (Key.ofBytes [3]) ⟨Word.ofNumber 6⟩)]

/-- The job of `wholeClock` at its end. -/
def longestJob : Job :=
  { waitingJob with
    node := some (Key.ofBytes [3]), result := ⟨Word.ofNumber 6⟩, state := .completed
    started := Int64.minValue + 1, ended := Int64.maxValue }

/-- A job that ran from one end of the clock to the other. -/
theorem execution_time_exact_whole_clock :
    new {enforceDeadline := false} = .ok (empty {enforceDeadline := false}) ∧
    ((empty {enforceDeadline := false}).after wholeClock).record? longestJob.market longestJob.id =
      some longestJob ∧
    (longestJob.executionSeconds.value : Int) = 18446744073709551614 := by
  have opened : new {enforceDeadline := false} = .ok (empty {enforceDeadline := false}) := rfl
  have recorded : ((empty {enforceDeadline := false}).after wholeClock).record? longestJob.market
      longestJob.id = some longestJob := by decide +kernel
  have exact := execution_time_exact opened wholeClock recorded
  have span : longestJob.ended.toInt - longestJob.started.toInt = 18446744073709551614 := by decide
  rw [if_pos (by decide), span] at exact
  exact ⟨opened, recorded, exact⟩

/-- A history in which a job is matched five seconds before time zero. -/
def earlyStart : List Move :=
  trade.take 4 ++ [.perform (-5) (.listNode waitingJob.market (Key.ofBytes [3]) .zero)]

/-- The job of `earlyStart` while it runs. -/
def earlyJob : Job :=
  { waitingJob with node := some (Key.ofBytes [3]), state := .running, started := -5 }

/-- A job that still runs is said to have run for the seconds up to time zero. -/
theorem running_time_before_zero :
    new {} = .ok (empty {}) ∧
    ((empty {}).after earlyStart).record? earlyJob.market earlyJob.id = some earlyJob ∧
    earlyJob.state = .running ∧ earlyJob.executionSeconds.value = 5 := by
  refine ⟨rfl, ?_, rfl, ?_⟩
  · decide +kernel
  · decide

end Store

end ComputeMarket
