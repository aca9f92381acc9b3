import ComputeMarket.Proofs.Store.Rating

/-
This file proves what the record of one node tells of its history: the rolling average against the
execution times that went into it, and the score against the counts of settled jobs.
-/

namespace ComputeMarket

/-- The execution time that a settlement counts. A timeout counts none. -/
def Mark.seconds? : Mark → Option Nat
  | timeout => none
  | completion seconds _ => some seconds.value

/-- A higher score is no lower tier. -/
theorem Tier.rank_ofScore_le {low high : Nat} (rising : low ≤ high) :
    (ofScore low).rank ≤ (ofScore high).rank := by
  unfold ofScore
  split_ifs <;> simp only [rank] <;> omega

namespace Reputation

/-- The record after settlements, each at its own time. -/
def noteAll (history : List (Int64 × Mark)) (reputation : Reputation) : Reputation :=
  history.foldl (fun reputation entry => entry.2.note entry.1 reputation) reputation

/-- The record of a new node after settlements. -/
def ofHistory (history : List (Int64 × Mark)) : Reputation := fresh.noteAll history

/-- The execution times of a history, oldest first. -/
def times (history : List (Int64 × Mark)) : List Nat :=
  history.filterMap fun entry => entry.2.seconds?

/-- What the largest weighted sum gives when it is divided. -/
def averageLimit : Nat := 0xffffffffffffffff / 10

/-- The weighted sum stops at the largest number before it is divided. -/
theorem value_nextAverage (average seconds : Count) :
    (nextAverage average seconds).value =
      if average.value = 0 then seconds.value
      else min (9 * average.value + seconds.value) 0xffffffffffffffff / 10 := by
  unfold nextAverage
  by_cases none : average.value = 0
  · rw [if_pos none, if_pos (Count.ext none)]
  · rw [if_neg none, if_neg fun zero => none (congrArg Count.value zero)]
    simp only [Count.scale, Count.add, Count.value_ofNat]
    omega

/-- What a rolling average tells of the times that went into it. Every bound of the times is one of
the average, a lower bound up to the limit only. Past it the sum stops: one time is its own average,
and from the second one on the average is the limit. -/
structure Averages (times : List Nat) (average : Nat) : Prop where
  le : ∀ upper, (∀ seconds ∈ times, seconds ≤ upper) → average ≤ upper
  ge : ∀ lower, lower ≤ averageLimit → times ≠ [] → (∀ seconds ∈ times, lower ≤ seconds) →
    lower ≤ average
  single : ∀ seconds, times = [seconds] → average = seconds
  held : 2 ≤ times.length → (∀ seconds ∈ times, averageLimit < seconds) → average = averageLimit

namespace Averages

variable {times : List Nat} {average : Count}

/-- Without completed jobs the average is zero. -/
theorem none : Averages [] 0 where
  le upper _ := Nat.zero_le upper
  ge lower _ some := absurd rfl some
  single seconds same := by cases same
  held many := by simp at many

theorem eq_zero (averages : Averages [] average.value) : average.value = 0 :=
  Nat.le_zero.1 (averages.le 0 fun _ member => nomatch member)

/-- One more completed job moves the average between the shortest and the longest time so far. -/
theorem next (averages : Averages times average.value) (seconds : Count) :
    Averages (times ++ [seconds.value]) (nextAverage average seconds).value := by
  rw [value_nextAverage]
  refine ⟨?_, ?_, ?_, ?_⟩
  · intro upper bounded
    rw [List.forall_mem_append, List.forall_mem_singleton] at bounded
    have before := averages.le upper bounded.1
    split <;> omega
  · intro lower reached _ bounded
    rw [List.forall_mem_append, List.forall_mem_singleton] at bounded
    unfold averageLimit at reached
    -- an average of zero stands for no time, or for times of which one is zero
    split
    · exact bounded.2
    · rename_i counted
      have some : times ≠ [] := by
        rintro rfl
        exact counted averages.eq_zero
      have before := averages.ge lower reached some bounded.1
      omega
  · intro only same
    obtain ⟨rfl, one⟩ := List.append_eq_singleton_iff.1 same |>.resolve_right (by simp)
    rw [if_pos averages.eq_zero]
    exact List.singleton_inj.1 one
  · intro many above
    rw [List.forall_mem_append, List.forall_mem_singleton] at above
    have some : times ≠ [] := by
      rintro rfl
      simp at many
    have before := averages.ge averageLimit (Nat.le_refl _) some
      fun seconds member => Nat.le_of_lt (above.1 seconds member)
    have last := above.2
    unfold averageLimit at before last ⊢
    rw [if_neg (by omega)]
    omega

end Averages

/-- Settlements, one after the other, keep the average in step with the times. -/
theorem Averages.noteAll {seen : List Nat} (reputation : Reputation)
    (averages : Averages seen reputation.averageSeconds.value) (history : List (Int64 × Mark)) :
    Averages (seen ++ times history) (reputation.noteAll history).averageSeconds.value := by
  induction history generalizing seen reputation with
  | nil =>
      rw [times, List.filterMap_nil, List.append_nil]
      exact averages
  | cons entry rest inductionHypothesis =>
      obtain ⟨now, mark⟩ := entry
      cases mark with
      | timeout =>
          exact inductionHypothesis (reputation.afterTimeout now) averages
      | completion seconds payout =>
          have later := inductionHypothesis (reputation.afterCompletion seconds payout now)
            (averages.next seconds)
          rw [List.append_assoc] at later
          exact later

/-- The average of a node that completed jobs is at most its longest time. It is at least its
shortest time, unless the node completed two jobs or more and all of them took longer than the
limit: then it is the limit, which is shorter than all of them. -/
theorem average_between_times (history : List (Int64 × Mark)) (completed : times history ≠ []) :
    (∃ longest ∈ times history, (ofHistory history).averageSeconds.value ≤ longest) ∧
    ((times history).length = 1 ∨ (∃ seconds ∈ times history, seconds ≤ averageLimit) →
      ∃ shortest ∈ times history, shortest ≤ (ofHistory history).averageSeconds.value) ∧
    (2 ≤ (times history).length → (∀ seconds ∈ times history, averageLimit < seconds) →
      (ofHistory history).averageSeconds.value = averageLimit) := by
  have averages : Averages (times history) (ofHistory history).averageSeconds.value :=
    Averages.noteAll fresh Averages.none history
  generalize (ofHistory history).averageSeconds.value = average at averages ⊢
  refine ⟨?_, ?_, averages.held⟩
  · by_contra above
    push Not at above
    obtain ⟨some, member⟩ := List.exists_mem_of_ne_nil _ completed
    have positive := above some member
    have bounded := averages.le (average - 1) fun seconds inside =>
      Nat.le_sub_one_of_lt (above seconds inside)
    omega
  · rintro (one | ⟨low, inside, reached⟩)
    · obtain ⟨only, same⟩ := List.length_eq_one_iff.1 one
      rw [same, averages.single only same]
      exact ⟨only, List.mem_singleton_self only, Nat.le_refl only⟩
    · by_contra below
      push Not at below
      have limited : average + 1 ≤ averageLimit := Nat.le_trans (below low inside) reached
      exact Nat.not_succ_le_self average (averages.ge (average + 1) limited completed below)

/-- A history whose average falls back to zero, from where it starts anew. -/
def interrupted : List (Int64 × Mark) :=
  [(1, .completion (.ofNat 1) .zero), (2, .timeout), (3, .completion .zero .zero),
   (4, .completion (.ofNat 600) .zero)]

/-- An average that falls back to zero starts anew. -/
theorem average_between_times_interrupted :
    times interrupted ≠ [] ∧ (ofHistory interrupted).averageSeconds.value = 600 ∧
    (∃ longest ∈ times interrupted, 600 ≤ longest) ∧
    ∃ shortest ∈ times interrupted, shortest ≤ 600 := by
  have completed : times interrupted ≠ [] := by decide
  have last : (ofHistory interrupted).averageSeconds.value = 600 := by decide
  have zero : 0 ∈ times interrupted := by decide
  obtain ⟨above, below, -⟩ := average_between_times interrupted completed
  rw [last] at above below
  exact ⟨completed, last, above, below (.inr ⟨0, zero, Nat.zero_le _⟩)⟩

/-- Two jobs that each take nearly all of time. -/
def ages : List (Int64 × Mark) :=
  [(1, .completion (.ofNat 0xfffffffffffffffe) .zero),
   (2, .completion (.ofNat 0xfffffffffffffffe) .zero)]

/-- The average of two equal times can be a tenth of each. -/
theorem average_below_all_times :
    times ages = [18446744073709551614, 18446744073709551614] ∧
    (ofHistory ages).averageSeconds.value = 1844674407370955161 ∧
    ¬ ∃ shortest ∈ times ages, shortest ≤ (ofHistory ages).averageSeconds.value := by
  decide

section Score

/-- The share of completed jobs in basis points, rounded down. -/
def share (completed timedOut : Nat) : Nat :=
  if completed = 0 ∧ timedOut = 0 then 10000 else 10000 * completed / (completed + timedOut)

/-- No share is more than the whole. -/
theorem share_le (completed timedOut : Nat) : share completed timedOut ≤ 10000 := by
  unfold share
  split
  · exact Nat.le_refl 10000
  · exact Nat.div_le_of_le_mul (by omega)

variable {completed timedOut : Nat}

/-- One more completed job does not lower the share. -/
theorem share_le_completed : share completed timedOut ≤ share (completed + 1) timedOut := by
  have whole := share_le completed timedOut
  by_cases idle : completed = 0 ∧ timedOut = 0
  · obtain ⟨rfl, rfl⟩ := idle
    decide
  · unfold share at whole ⊢
    rw [if_neg idle] at whole ⊢
    rw [if_neg (by omega), Nat.le_div_iff_mul_le (by omega)]
    have exact := Nat.div_mul_le_self (10000 * completed) (completed + timedOut)
    generalize 10000 * completed / (completed + timedOut) = rate at whole exact ⊢
    calc rate * (completed + 1 + timedOut)
        = rate * (completed + timedOut) + rate := by rw [Nat.add_right_comm, Nat.mul_succ]
      _ ≤ 10000 * completed + 10000 := Nat.add_le_add exact whole

/-- One more job that ran out of time does not raise the share. -/
theorem share_timedOut_le : share completed (timedOut + 1) ≤ share completed timedOut := by
  by_cases idle : completed = 0 ∧ timedOut = 0
  · obtain ⟨rfl, rfl⟩ := idle
    decide
  · unfold share
    rw [if_neg idle, if_neg (by omega)]
    exact Nat.div_le_div_left (by omega) (by omega)

end Score

/-- The share fits 16 bits, so that none of it is cut off. -/
theorem completionRate_eq_share (reputation : Reputation) :
    reputation.completionRate = share reputation.completed.value reputation.timedOut.value := by
  have whole := share_le reputation.completed.value reputation.timedOut.value
  unfold share at whole ⊢
  unfold completionRate
  by_cases idle : reputation.completed.value = 0 ∧ reputation.timedOut.value = 0
  · rw [if_pos idle, if_pos (by omega)]
  · rw [if_neg idle] at whole ⊢
    have fits : 10000 * reputation.completed.value /
        (reputation.completed.value + reputation.timedOut.value) < 0x10000 := by omega
    rw [if_neg (by omega), Nat.mul_comm reputation.completed.value, Nat.mod_eq_of_lt fits]

/-- One node stands at most as high as another by every measure. -/
structure StandsAtMost (lower higher : Reputation) : Prop where
  rate : lower.completionRate ≤ higher.completionRate
  score : lower.score ≤ higher.score
  tier : lower.tier.rank ≤ higher.tier.rank

/-- Score and tier follow the share. -/
theorem standsAtMost_of_rate {lower higher : Reputation}
    (rate : lower.completionRate ≤ higher.completionRate) : lower.StandsAtMost higher := by
  have score : lower.score ≤ higher.score := by
    unfold Reputation.score
    omega
  exact ⟨rate, score, Tier.rank_ofScore_le score⟩

/-- A completed job lowers nothing, also where the count of them is full. -/
theorem standsAtMost_afterCompletion (reputation : Reputation) (seconds : Count) (revenue : Amount)
    (now : Int64) : reputation.StandsAtMost (reputation.afterCompletion seconds revenue now) := by
  apply standsAtMost_of_rate
  rw [completionRate_eq_share, completionRate_eq_share]
  change _ ≤ share reputation.completed.next.value reputation.timedOut.value
  obtain full | more := reputation.completed.value_next_cases
  · rw [full]
  · rw [more]
    exact share_le_completed

/-- A job that ran out of time raises nothing, also where the count of them is full. -/
theorem afterTimeout_standsAtMost (reputation : Reputation) (now : Int64) :
    (reputation.afterTimeout now).StandsAtMost reputation := by
  apply standsAtMost_of_rate
  rw [completionRate_eq_share, completionRate_eq_share]
  change share reputation.completed.value reputation.timedOut.next.value ≤ _
  obtain full | more := reputation.timedOut.value_next_cases
  · rw [full]
  · rw [more]
    exact share_timedOut_le

/-- Of every record, also one whose counts are full: the rate is the exact share of completed jobs,
rounded down, and the whole one for a node without history; the score is a tenth of the rate, and
both keep to their ranges. A completed job lowers neither of them nor the tier, and a job that ran
out of time raises none of the three. -/
theorem score_follows_settlements (reputation : Reputation) :
    reputation.completionRate =
      (if reputation.completed.value = 0 ∧ reputation.timedOut.value = 0 then 10000
        else 10000 * reputation.completed.value /
          (reputation.completed.value + reputation.timedOut.value)) ∧
    reputation.completionRate ≤ 10000 ∧
    reputation.score = reputation.completionRate / 10 ∧ reputation.score ≤ 1000 ∧
    (∀ seconds revenue now,
      reputation.StandsAtMost (reputation.afterCompletion seconds revenue now)) ∧
    ∀ now, (reputation.afterTimeout now).StandsAtMost reputation := by
  have rate := completionRate_eq_share reputation
  have whole : reputation.completionRate ≤ 10000 := by
    rw [rate]
    exact share_le _ _
  have score : reputation.score = reputation.completionRate / 10 := by
    rw [Reputation.score, Nat.min_eq_left (by omega)]
  refine ⟨rate, whole, score, ?_, reputation.standsAtMost_afterCompletion,
    reputation.afterTimeout_standsAtMost⟩
  rw [score]
  omega

section Standing

/-- How many settlements of a history are timeouts. -/
def timeouts (history : List (Int64 × Mark)) : Nat :=
  history.countP fun entry => entry.2.seconds?.isNone

/-- How many settlements of a history are completions. -/
def completions (history : List (Int64 × Mark)) : Nat :=
  history.countP fun entry => entry.2.seconds?.isSome

/-- Every settlement is counted once, as long as there is room for it. -/
theorem counts_noteAll (history : List (Int64 × Mark)) (start : Reputation) :
    (start.noteAll history).completed = .ofNat (start.completed.value + completions history) ∧
    (start.noteAll history).timedOut = .ofNat (start.timedOut.value + timeouts history) := by
  induction history generalizing start with
  | nil =>
      have completed := Nat.min_eq_left start.completed.value_le
      have timedOut := Nat.min_eq_left start.timedOut.value_le
      exact ⟨Count.ext completed.symm, Count.ext timedOut.symm⟩
  | cons entry rest inductionHypothesis =>
      obtain ⟨now, mark⟩ := entry
      have later := inductionHypothesis (mark.note now start)
      rw [completions, timeouts, List.countP_cons, List.countP_cons, ← completions, ← timeouts]
      refine ⟨later.1.trans (Count.ext ?_), later.2.trans (Count.ext ?_)⟩ <;> cases mark <;>
        simp only [Mark.note, afterTimeout, afterCompletion, Mark.seconds?, Count.next,
          Count.value_ofNat, Option.isSome_none, Option.isSome_some, Option.isNone_none,
          Option.isNone_some, Bool.false_eq_true, if_true, if_false] <;>
        omega

/-- A score of exactly 500, in the numbers of settled jobs. -/
theorem score_eq_half_iff (reputation : Reputation) : reputation.score = 500 ↔
    reputation.timedOut.value ≤ reputation.completed.value ∧
      499 * reputation.completed.value < 501 * reputation.timedOut.value := by
  have rate := completionRate_eq_share reputation
  have whole : reputation.completionRate ≤ 10000 := rate ▸ share_le _ _
  have range : reputation.score = 500 ↔
      5000 ≤ reputation.completionRate ∧ reputation.completionRate < 5010 := by
    unfold score
    omega
  rw [range, rate]
  unfold share
  split
  · omega
  · rename_i busy
    rw [Nat.le_div_iff_mul_le (by omega), Nat.div_lt_iff_lt_mul (by omega)]
    omega

/-- The bands from silver on begin one point above the score of good standing. -/
theorem rank_tier_iff (reputation : Reputation) :
    Tier.silver.rank ≤ reputation.tier.rank ↔ 501 ≤ reputation.score := by
  unfold tier Tier.ofScore
  split_ifs <;> simp only [Tier.rank] <;> omega

/-- A node is in good standing exactly if its tier is silver or better, or its score is 500, which
is still bronze. For the settled jobs that means that at least as many were completed as ran out of
time, but fewer than 501 for every 499. Whatever the record was at the start, the counts of the jobs
are those of the start and of the history together, as long as there is room for them. -/
theorem good_standing_by_tier (start : Reputation) (history : List (Int64 × Mark)) :
    let after := start.noteAll history
    (after.isGoodStanding = true ↔
      Tier.silver.rank ≤ after.tier.rank ∨ after.tier = .bronze ∧ after.score = 500) ∧
    (after.score = 500 ↔ after.timedOut.value ≤ after.completed.value ∧
      499 * after.completed.value < 501 * after.timedOut.value) ∧
    after.completed = .ofNat (start.completed.value + completions history) ∧
    after.timedOut = .ofNat (start.timedOut.value + timeouts history) := by
  intro after
  refine ⟨?_, score_eq_half_iff after, counts_noteAll history start⟩
  have bronze : after.score = 500 → after.tier = .bronze := by
    intro half
    rw [tier, half]
    rfl
  rw [rank_tier_iff, isGoodStanding, decide_eq_true_eq, and_iff_right_of_imp bronze]
  omega

/-- After one completed job and one that ran out of time, a node is in good standing and bronze. -/
theorem good_standing_in_bronze :
    let after := fresh.noteAll [(1, .completion (.ofNat 60) ⟨1, by decide⟩), (2, .timeout)]
    after.tier = .bronze ∧
      ¬ (after.isGoodStanding = true ↔ Tier.silver.rank ≤ after.tier.rank) := by
  decide

end Standing

end Reputation

end ComputeMarket
