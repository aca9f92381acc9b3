import ComputeMarket.Proofs.Store.Record

/-
This file proves that what the settlements of one time count for their nodes may be counted in any
order, as long as no node completes jobs on both sides.
-/

namespace ComputeMarket

/-- What a settlement counts for the node of the job. -/
inductive Mark where
  | timeout
  | completion (seconds : Count) (payout : Amount)

namespace Mark

/-- The record after one settlement is counted. -/
def note (now : Int64) : Mark → Reputation → Reputation
  | timeout, reputation => reputation.afterTimeout now
  | completion seconds payout, reputation => reputation.afterCompletion seconds payout now

/-- A timeout and a completion count in different places, and the time is the same. -/
theorem note_comm {first second : Mark} (apart : first = timeout ∨ second = timeout) (now : Int64)
    (reputation : Reputation) :
    first.note now (second.note now reputation) = second.note now (first.note now reputation) := by
  rcases apart with rfl | rfl
  · cases second <;> rfl
  · cases first <;> rfl

/-- Only given accounts complete a job. -/
def Confined (accounts : List Key) (marks : List (Key × Mark)) : Prop :=
  ∀ mark ∈ marks, mark.2 = timeout ∨ mark.1 ∈ accounts

/-- None of the given accounts completes a job. -/
def Spares (accounts : List Key) (marks : List (Key × Mark)) : Prop :=
  ∀ mark ∈ marks, mark.2 = timeout ∨ mark.1 ∉ accounts

/-- Settlements of some accounts spare all others. -/
theorem Confined.spares {accounts others : List Key} {marks : List (Key × Mark)}
    (confined : Confined others marks) (disjoint : accounts.Disjoint others) :
    Spares accounts marks := by
  intro mark member
  obtain timeout | inside := confined mark member
  · exact .inl timeout
  · exact .inr (List.disjoint_right.1 disjoint inside)

end Mark

namespace Config

variable (config : Config) (now : Int64)

/-- The reputations after settlements, one after the other. -/
def rateAll (marks : List (Key × Mark)) (reputations : KeyMap Reputation) : KeyMap Reputation :=
  marks.foldl (fun reputations mark => config.rate mark.1 (mark.2.note now) reputations) reputations

theorem rateAll_append (first rest : List (Key × Mark)) (reputations : KeyMap Reputation) :
    config.rateAll now (first ++ rest) reputations =
      config.rateAll now rest (config.rateAll now first reputations) :=
  List.foldl_append

/-- Two settlements are counted in either order, unless both complete a job of one node, whose
average would tell them apart. -/
theorem rate_comm {first second : Key × Mark}
    (apart : first.1 = second.1 → first.2 = .timeout ∨ second.2 = .timeout)
    (reputations : KeyMap Reputation) :
    config.rate first.1 (first.2.note now) (config.rate second.1 (second.2.note now) reputations) =
      config.rate second.1 (second.2.note now)
        (config.rate first.1 (first.2.note now) reputations) := by
  unfold rate
  cases config.trackReputation with
  | false => rfl
  | true =>
      simp only [if_true]
      by_cases same : first.1 = second.1
      · rw [same, KeyMap.get?_insert_self, KeyMap.get?_insert_self, KeyMap.insert_insert,
          KeyMap.insert_insert, Option.getD_some, Option.getD_some, Mark.note_comm (apart same)]
      · rw [KeyMap.get?_insert_of_ne _ _ (Ne.symm same), KeyMap.get?_insert_of_ne _ _ same,
          KeyMap.insert_comm _ _ _ (Ne.symm same)]

/-- A settlement may be counted before or after others that are apart from it. -/
theorem rateAll_rate {marks : List (Key × Mark)} (mark : Key × Mark)
    (apart : ∀ other ∈ marks, mark.1 = other.1 → mark.2 = .timeout ∨ other.2 = .timeout)
    (reputations : KeyMap Reputation) :
    config.rateAll now marks (config.rate mark.1 (mark.2.note now) reputations) =
      config.rate mark.1 (mark.2.note now) (config.rateAll now marks reputations) := by
  induction marks generalizing reputations with
  | nil => rfl
  | cons first rest inductionHypothesis =>
      rw [List.forall_mem_cons] at apart
      change config.rateAll now rest (config.rate first.1 (first.2.note now) _) = _
      rw [← config.rate_comm now apart.1, inductionHypothesis apart.2]
      rfl

/-- Runs of settlements that complete no jobs of one node are counted in either order. -/
theorem rateAll_comm {accounts : List Key} {first second : List (Key × Mark)}
    (confined : Mark.Confined accounts first) (spares : Mark.Spares accounts second)
    (reputations : KeyMap Reputation) :
    config.rateAll now second (config.rateAll now first reputations) =
      config.rateAll now first (config.rateAll now second reputations) := by
  induction first generalizing reputations with
  | nil => rfl
  | cons mark rest inductionHypothesis =>
      unfold Mark.Confined at confined
      rw [List.forall_mem_cons] at confined
      have apart : ∀ other ∈ second, mark.1 = other.1 → mark.2 = .timeout ∨ other.2 = .timeout := by
        intro other member same
        obtain timeout | inside := confined.1
        · exact .inl timeout
        obtain timeout | outside := spares other member
        · exact .inr timeout
        rw [same] at inside
        exact absurd inside outside
      change config.rateAll now second (config.rateAll now rest (config.rate mark.1 _ _)) = _
      rw [inductionHypothesis confined.2, config.rateAll_rate now mark apart]
      rfl

end Config

/-- The node that a change tells to have completed a job. -/
def Change.completer? : Change → Option Key
  | .told (.jobCompleted _ _ node ..) => some node
  | _ => none

namespace Store

variable {now : Int64} {store after : Store} {seen : Change} {changes : List Change}

/-- A change of a store counts settlements only, and completes jobs of the node that it tells. -/
theorem Step.marks (step : Step now store seen after) :
    ∃ marks, after.reputations = store.config.rateAll now marks store.reputations ∧
      ∀ mark ∈ marks, mark.2 = .timeout ∨ seen.completer? = some mark.1 := by
  cases step with
  | opened => exact ⟨[], rfl, List.forall_mem_nil _⟩
  | entered => exact ⟨[], rfl, List.forall_mem_nil _⟩
  | paid => exact ⟨[], rfl, List.forall_mem_nil _⟩
  | traded market venue event desk =>
      cases event with
      | jobCompleted market job node result payout =>
          let seconds := (desk.venue.jobs.get? job).elim .zero Job.executionSeconds
          exact ⟨[(node, .completion seconds payout)], rfl, List.forall_mem_singleton.2 (.inr rfl)⟩
      | jobTimedOut market job client node =>
          cases node with
          | none => exact ⟨[], rfl, List.forall_mem_nil _⟩
          | some node => exact ⟨[(node, .timeout)], rfl, List.forall_mem_singleton.2 (.inl rfl)⟩
      | _ => exact ⟨[], rfl, List.forall_mem_nil _⟩

/-- Changes one after the other count the settlements that they tell. -/
theorem Steps.marks (steps : Steps now store changes after) :
    ∃ marks, after.reputations = store.config.rateAll now marks store.reputations ∧
      ∀ mark ∈ marks, mark.2 = .timeout ∨ ∃ seen ∈ changes, seen.completer? = some mark.1 := by
  induction steps with
  | none store => exact ⟨[], rfl, List.forall_mem_nil _⟩
  | more first rest inductionHypothesis =>
      obtain ⟨marks, rated, listed⟩ := first.marks
      obtain ⟨others, ratedLater, listedLater⟩ := inductionHypothesis
      refine ⟨marks ++ others, ?_, ?_⟩
      · rw [ratedLater, first.config, rated, Config.rateAll_append]
      · intro mark member
        rcases List.mem_append.1 member with early | late
        · exact (listed mark early).imp_right fun told => ⟨_, List.mem_cons_self, told⟩
        · refine (listedLater mark late).imp_right ?_
          rintro ⟨seen, later, told⟩
          exact ⟨seen, List.mem_cons_of_mem _ later, told⟩

end Store

end ComputeMarket
