import ComputeMarket.Proofs.Store.Record
import Mathlib.Logic.Relation

/-
This file proves the lifecycle of jobs over whole histories: a record never disappears, its terms
never change, its state goes along the lifecycle and its node is bound once, and a settled job
stays exactly as it is.
-/

namespace ComputeMarket

/-- The moves of the lifecycle. -/
inductive JobState.Leads : JobState → JobState → Prop
  | matched : Leads .queued .running
  | withdrawn : Leads .queued .stopped
  | expired : Leads .queued .timedOut
  | finished : Leads .running .completed
  | failed : Leads .running .timedOut

namespace Job

/-- What a record may become: its terms stay, a bound node stays bound, the state goes along the
lifecycle, and the record of a settled job stays as it is. -/
structure Becomes (job later : Job) : Prop where
  id : later.id = job.id
  market : later.market = job.market
  client : later.client = job.client
  definition : later.definition = job.definition
  price : later.price = job.price
  timeout : later.timeout = job.timeout
  vram : later.vram = job.vram
  gpu : later.gpu = job.gpu
  created : later.created = job.created
  node : ∀ node, job.node = some node → later.node = some node
  state : Relation.ReflTransGen JobState.Leads job.state later.state
  settled : job.state = .completed ∨ job.state = .stopped ∨ job.state = .timedOut → later = job

/-- What a record may become at once: its state makes one move of the lifecycle at most. -/
structure Advances (job next : Job) : Prop extends job.Becomes next where
  move : next.state = job.state ∨ JobState.Leads job.state next.state

variable {job middle later : Job} {config : Config} {now : Int64} {seen : Change}

/-- What becomes of a job in two parts of a history becomes of it in the whole. -/
theorem Becomes.trans (first : job.Becomes middle) (second : middle.Becomes later) :
    job.Becomes later where
  id := second.id.trans first.id
  market := second.market.trans first.market
  client := second.client.trans first.client
  definition := second.definition.trans first.definition
  price := second.price.trans first.price
  timeout := second.timeout.trans first.timeout
  vram := second.vram.trans first.vram
  gpu := second.gpu.trans first.gpu
  created := second.created.trans first.created
  node node bound := second.node node (first.node node bound)
  state := first.state.trans second.state
  settled ended := by
    have same := first.settled ended
    subst same
    exact second.settled ended

theorem Advances.refl (job : Job) : job.Advances job where
  id := rfl
  market := rfl
  client := rfl
  definition := rfl
  price := rfl
  timeout := rfl
  vram := rfl
  gpu := rfl
  created := rfl
  node _ bound := bound
  state := .refl
  settled _ := rfl
  move := .inl rfl

/-- A settled job is not open. -/
theorem isOpen_of_settled
    (ended : job.state = .completed ∨ job.state = .stopped ∨ job.state = .timedOut) :
    job.isOpen = false := by
  unfold isOpen
  obtain completed | stopped | timedOut := ended
  · rw [completed]
    rfl
  · rw [stopped]
    rfl
  · rw [timedOut]
    rfl

/-- A settlement makes one move of the lifecycle. -/
theorem Settlement.leads {ended : Job} {payee : Key} {event : Event}
    (settlement : job.Settlement config now ended payee event) :
    JobState.Leads job.state ended.state := by
  cases settlement with
  | completed node result running =>
      rw [running]
      exact .finished
  | stopped queued =>
      rw [queued]
      exact .withdrawn
  | timedOut unsettled =>
      obtain queued | running := JobState.isOpen_iff.1 unsettled
      · rw [queued]
        exact .expired
      · rw [running]
        exact .failed

/-- Every turn of a record is an advance. -/
theorem Turn.advances (turn : job.Turn config now seen later) : job.Advances later := by
  have settled := fun ended => turn.eq_of_not_isOpen (isOpen_of_settled ended)
  cases turn with
  | kept => exact .refl job
  | started node queued free =>
      have leads : JobState.Leads job.state .running := by
        rw [queued]
        exact .matched
      refine ⟨⟨rfl, rfl, rfl, rfl, rfl, rfl, rfl, rfl, rfl, ?_, .single leads, settled⟩, .inr leads⟩
      intro other bound
      rw [free] at bound
      cases bound
  | settled ended payee event settlement =>
      have leads := settlement.leads
      cases settlement <;>
        exact ⟨⟨rfl, rfl, rfl, rfl, rfl, rfl, rfl, rfl, rfl, fun _ bound => bound, .single leads,
          settled⟩, .inr leads⟩

/-- A turn keeps a result where the job is completed and nowhere else. -/
theorem Turn.result_iff (turn : job.Turn config now seen later)
    (agrees : job.result ≠ .zero ↔ job.state = .completed) :
    later.result ≠ .zero ↔ later.state = .completed := by
  cases turn with
  | kept => exact agrees
  | started node queued =>
      rw [queued] at agrees
      simpa using agrees
  | settled ended payee event settlement =>
      have unsettled := JobState.isOpen_iff.1 settlement.isOpen
      have unfinished : job.state ≠ .completed := by
        intro completed
        rw [completed] at unsettled
        simp at unsettled
      cases settlement with
      | completed node result running bound delivered => exact iff_of_true delivered rfl
      | stopped => exact iff_of_false (fun set => unfinished (agrees.1 set)) JobState.noConfusion
      | timedOut => exact iff_of_false (fun set => unfinished (agrees.1 set)) JobState.noConfusion

end Job

namespace Store

variable {now : Int64} {store after : Store} {seen : Change} {market id : Key} {job : Job}

/-- A move loses no record, and moves every job once at most. -/
theorem Sound.advances_move (sound : store.Sound) (move : Move)
    (recorded : store.record? market id = some job) :
    ∃ next, (store.move move).record? market id = some next ∧ job.Advances next := by
  obtain same | forgot | ⟨now, operation, reply, changes, does, steps⟩ := sound.move_cases move
  · rw [same]
    exact ⟨job, recorded, .refl job⟩
  · rw [forgot]
    exact ⟨job, recorded, .refl job⟩
  · have once {change : Change} (steps : Steps now store [change] (store.move move)) :
        ∃ next, (store.move move).record? market id = some next ∧ job.Advances next := by
      obtain ⟨next, found, turn⟩ := steps.single.turn sound recorded
      exact ⟨next, found, turn.advances⟩
    cases does with
    | swept place ended =>
        obtain ⟨next, seen, found, turn⟩ := steps.turn_of_timeouts sound recorded
        exact ⟨next, found, turn.advances⟩
    | _ => exact once steps

/-- A record is kept, and only moves on as jobs do, whatever is done. -/
theorem Sound.becomes_after (sound : store.Sound) (moves : List Move)
    (recorded : store.record? market id = some job) :
    ∃ later, (store.after moves).record? market id = some later ∧ job.Becomes later := by
  induction moves generalizing store job with
  | nil => exact ⟨job, recorded, (Job.Advances.refl job).toBecomes⟩
  | cons move rest inductionHypothesis =>
      obtain ⟨next, found, advances⟩ := sound.advances_move move recorded
      obtain ⟨later, last, becomes⟩ := inductionHypothesis (sound.move move) found
      exact ⟨later, last, advances.toBecomes.trans becomes⟩

/-- Exactly the completed jobs have a result. -/
def ResultsAgree (store : Store) : Prop :=
  ∀ market id job, store.record? market id = some job →
    (job.result ≠ .zero ↔ job.state = .completed)

/-- Every change of a store leaves results with completed jobs, and only with them. -/
theorem Step.resultsAgree (sound : store.Sound) (agree : store.ResultsAgree)
    (step : Step now store seen after) : after.ResultsAgree := by
  intro market id next recorded
  obtain ⟨job, before, turn⟩ | ⟨unsettled, empty, -⟩ := step.origin sound recorded
  · exact turn.result_iff (agree market id job before)
  · refine iff_of_false (fun set => set empty) ?_
    intro completed
    rw [Job.isOpen, completed] at unsettled
    cases unsettled

/-- Whatever is done with a store, a record stays in its market under its id, where the query for
the job finds it; it becomes only what the lifecycle allows, and one more operation moves it once
at most. In a store that started empty, exactly the completed jobs have a result. -/
theorem lifecycle_kept {start : Store} (initial : start.Initial) (moves : List Move) :
    (∀ market id job, (start.after moves).record? market id = some job →
      ∀ further : List Move, ∃ later,
        ((start.after moves).after further).record? market id = some later ∧
        ((start.after moves).after further).job? id = some later ∧
        job.Becomes later ∧
        ∀ move : Move, ∃ next,
          (((start.after moves).after further).move move).record? market id = some next ∧
          later.Advances next) ∧
    ((∃ config, new config = .ok start) → (start.after moves).ResultsAgree) := by
  have sound := initial.sound.after moves
  constructor
  · intro market id job recorded further
    have laterSound := sound.after further
    obtain ⟨later, found, becomes⟩ := sound.becomes_after further recorded
    refine ⟨later, found, laterSound.job?_eq_some found, becomes, ?_⟩
    intro move
    exact laterSound.advances_move move found
  · rintro ⟨config, opened⟩
    apply initial.sound.invariant_after ResultsAgree
    · obtain ⟨-, same⟩ := Guard.unit_bind_eq_ok.1 opened
      cases same
      intro market id job recorded
      cases recorded
    · intro store agree
      exact agree
    · intro now store after seen sound agree step
      exact step.resultsAgree sound agree

theorem lifecycle_kept_trade :
    (empty {}).Initial ∧
    ∃ job later,
      ((empty {}).after (trade.take 4)).record? (Market.idOf (Key.ofBytes [1]) 0)
        (Key.ofBytes [4]) = some job ∧
      (((empty {}).after (trade.take 4)).after (trade.drop 4)).record?
        (Market.idOf (Key.ofBytes [1]) 0) (Key.ofBytes [4]) = some later ∧
      job.Becomes later ∧ ((empty {}).after (trade.take 4)).ResultsAgree := by
  have initial : (empty {}).Initial := .opened {} rfl
  have present : (((empty {}).after (trade.take 4)).record? (Market.idOf (Key.ofBytes [1]) 0)
      (Key.ofBytes [4])).isSome = true := by decide +kernel
  obtain ⟨job, recorded⟩ := Option.isSome_iff_exists.1 present
  obtain ⟨kept, agree⟩ := lifecycle_kept initial (trade.take 4)
  obtain ⟨later, found, -, becomes, -⟩ := kept _ _ job recorded (trade.drop 4)
  exact ⟨initial, job, later, recorded, found, becomes, agree ⟨{}, rfl⟩⟩

example : (((empty {}).after (trade.take 4)).job? (Key.ofBytes [4])).map Job.state = some .queued ∧
    (((empty {}).after trade).job? (Key.ofBytes [4])).map Job.state = some .completed := by
  decide +kernel

end Store

end ComputeMarket
