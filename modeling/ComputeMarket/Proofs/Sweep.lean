import ComputeMarket.Proofs.Soundness

/-
This file proves that a sweep of a sound ledger always succeeds, and that it is a run of timeouts.
-/

namespace ComputeMarket

namespace Venue

variable {venue : Venue} {now : Int64} {expiry : Expiry}

/-- The overdue jobs are the open jobs past their deadline. -/
theorem mem_overdueJobs (filed : ∀ id job, venue.jobs.get? id = some job → job.id = id)
    {id : Key} :
    id ∈ venue.overdueJobs now expiry ↔ ∃ job, venue.jobs.get? id = some job ∧
      job.isOpen = true ∧ job.isExpired now expiry = true := by
  simp only [overdueJobs, List.mem_map, (Job.sortByAge_perm _).mem_iff, List.mem_filter,
    KeyMap.mem_values, Bool.and_eq_true]
  constructor
  · rintro ⟨job, ⟨⟨key, found⟩, late⟩, rfl⟩
    have same := filed key job found
    exact ⟨job, by rw [same]; exact found, late⟩
  · rintro ⟨job, found, late⟩
    exact ⟨job, ⟨⟨id, found⟩, late⟩, filed id job found⟩

/-- A sweep comes to every job once. -/
theorem nodup_overdueJobs (filed : ∀ id job, venue.jobs.get? id = some job → job.id = id) :
    (venue.overdueJobs now expiry).Nodup := by
  have all : (venue.jobs.values.map Job.id).Nodup := by
    rw [map_id_values filed]
    exact venue.jobs.keys_nodup
  rw [overdueJobs, ((Job.sortByAge_perm _).map Job.id).nodup_iff]
  exact all.sublist (List.filter_sublist.map Job.id)

end Venue

namespace Desk

variable {desk : Desk}

/-- A run of timeouts never fails, and passes over the jobs that cannot be timed out. -/
theorem timeoutJobs_outcome (config : Config) (now : Int64) (ids : List Key)
    (sound : desk.venue.Sound) :
    ∃ ended after, (timeoutJobs config.expiry now ids).run desk = .ok ended after ∧
      Timeouts config now desk ids ended after := by
  induction ids generalizing desk with
  | nil => exact ⟨[], desk, rfl, .none desk⟩
  | cons id rest inductionHypothesis =>
      unfold timeoutJobs
      simp only [EStateM.run_bind, Action.attempt_run]
      have outcome := timeoutJob_outcome desk sound id config now
      cases ran : (timeoutJob id config.expiry now).run desk with
      | error cause middle =>
          obtain ⟨refused, unchanged⟩ := outcome.of_error ran
          subst unchanged
          obtain ⟨ended, after, others, timeouts⟩ := inductionHypothesis sound
          simp only [others, EStateM.run_pure]
          exact ⟨_, after, rfl, .passed id cause refused timeouts⟩
      | ok reply middle =>
          obtain ⟨step, recorded, same, told⟩ := outcome.of_ok ran
          obtain ⟨late, event⟩ := reply
          simp only at step recorded same told
          subst same told
          obtain ⟨ended, after, others, timeouts⟩ := inductionHypothesis (step.sound sound)
          simp only [others, EStateM.run_pure]
          exact ⟨_, after, rfl, .ended late step recorded timeouts⟩

/-- A sweep never fails, and times the overdue jobs out one after the other. -/
theorem sweep_outcome (desk : Desk) (sound : desk.venue.Sound) (config : Config) (now : Int64) :
    ∃ ended after, (sweep config.expiry now).run desk = .ok ended after ∧
      Timeouts config now desk (desk.venue.overdueJobs now config.expiry) ended after := by
  obtain ⟨ended, after, ran, timeouts⟩ :=
    timeoutJobs_outcome config now (desk.venue.overdueJobs now config.expiry) sound
  refine ⟨ended, after, ?_, timeouts⟩
  simp only [sweep, EStateM.run_bind, EStateM.run_get]
  exact ran

end Desk

end ComputeMarket
