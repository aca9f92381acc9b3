import ComputeMarket.Proofs.Consistency
import ComputeMarket.Proofs.Footprint
import ComputeMarket.Proofs.Store.Past
import ComputeMarket.Proofs.Store.Rating

/-
This file proves that an operation on one market notices nothing outside of its footprint, and
changes nothing there but what its settlements count for nodes.
-/

namespace ComputeMarket

namespace Operation

/-- The accounts that an operation may move money of. -/
def accounts (store : Store) : Operation → List Key
  | createJob _ client _ | cancelJob _ client => [client]
  | finishJob _ node _ => [node]
  | timeoutJob job => ((store.job? job).map Job.client).toList
  | sweep market =>
    match store.jobsOf market with
    | .ok jobs => (jobs.filter Job.isOpen).map Job.client
    | .error _ => []
  | deposit account _ => [account]
  | createMarket .. | listNode .. | delistNode .. => []

/-- The id that an operation means to give to a new job. -/
def newJob? : Operation → Option Key
  | createJob _ _ request => some request.id
  | _ => none

/-- An operation names a market, or a job that is recorded there. -/
inductive Concerns (store : Store) (market : Key) (operation : Operation) : Prop
  | market (names : operation.market? = some market)
  | job (id : Key) (job : Job) (names : operation.job? = some id)
      (recorded : store.record? market id = some job)

end Operation

/-- The parts of a store that an operation on a market may look at and change, next to the
reputations and the events. -/
structure Footprint where
  market : Key
  accounts : List Key
  newJob? : Option Key

/-- What a footprint stands before: another store, and settlements of the time that are counted
besides. -/
structure Backdrop where
  footprint : Footprint
  outer : Store
  marks : List (Key × Mark)
  now : Int64

/-- The footprint of an operation on a market. -/
def Operation.footprint (operation : Operation) (store : Store) (market : Key) : Footprint :=
  ⟨market, operation.accounts store, operation.newJob?⟩

namespace Store

/-- The store before a backdrop: what lies outside of the footprint comes from the other store, the
settlements are counted besides, and the events of the other store are told first. -/
def amid (around : Backdrop) (store : Store) : Store where
  config := store.config
  venues := .splice (· = around.footprint.market) store.venues around.outer.venues
  jobMarkets := .splice (around.footprint.newJob? = some ·) store.jobMarkets around.outer.jobMarkets
  balances := store.balances.amid around.footprint.accounts around.outer.balances
  reputations := store.config.rateAll around.now around.marks store.reputations
  events := around.outer.events ++ store.events

section Blocks

variable {α : Type} {around : Backdrop} {store : Store}

/-- What a transition inside the footprint leaves may be filed before or after the outer store is
put around it. -/
theorem file_amid (desk : Desk) :
    (store.amid around).file around.footprint.market
        (desk.amid around.footprint.accounts around.outer.balances) =
      (store.file around.footprint.market desk).amid around := by
  unfold file amid Desk.amid
  dsimp only
  rw [KeyMap.insert_splice (· = around.footprint.market) rfl]

/-- On its market, an operation notices what its transition notices. -/
theorem ignores_onMarket {transition : Transition α}
    (each : ∀ venue, store.venues.get? around.footprint.market = some venue →
      Ignores (Desk.amid around.footprint.accounts around.outer.balances) transition
        ⟨venue, store.balances⟩) :
    Ignores (amid around) (onMarket around.footprint.market transition) store := by
  have sameVenue : (store.amid around).venues.get? around.footprint.market =
      store.venues.get? around.footprint.market := by
    rw [amid, KeyMap.get?_splice, if_pos rfl]
  unfold Ignores
  rw [onMarket_run, onMarket_run, sameVenue]
  cases found : store.venues.get? around.footprint.market with
  | none => rfl
  | some venue =>
      have same : transition.run ⟨venue, (store.amid around).balances⟩ =
          onState (Desk.amid around.footprint.accounts around.outer.balances)
            (transition.run ⟨venue, store.balances⟩) := each venue found
      dsimp only
      rw [same]
      cases transition.run ⟨venue, store.balances⟩ with
      | ok value desk => exact congrArg (EStateM.Result.ok value) (file_amid desk)
      | error cause desk => exact congrArg (EStateM.Result.error cause) (file_amid desk)

/-- An operation on a job goes on in the market that the job has both here and around. -/
theorem ignores_onJob {id : Key} {next : Key → Action α}
    (indexed : store.jobMarkets.get? id = some around.footprint.market)
    (same : around.outer.jobMarkets.get? id = some around.footprint.market)
    (rest : Ignores (amid around) (next around.footprint.market) store) :
    Ignores (amid around) (marketOfJob id >>= next) store := by
  have found (store : Store) (indexed : store.jobMarkets.get? id = some around.footprint.market) :
      (marketOfJob id).run store = .ok around.footprint.market store := by
    unfold marketOfJob
    rw [EStateM.run_bind, EStateM.run_get]
    simp only [indexed, EStateM.run_pure]
  have indexedAmid :
      (store.amid around).jobMarkets.get? id = some around.footprint.market := by
    rw [amid, KeyMap.get?_splice, indexed, same, ite_self]
  unfold Ignores at rest ⊢
  rw [EStateM.run_bind, EStateM.run_bind, found store indexed, found _ indexedAmid]
  exact rest

/-- Events are added behind those of the outer store. -/
theorem ignores_announce (events : List Event) :
    Ignores (amid around) (announce events) store := by
  apply Ignores.modify
  unfold amid
  dsimp only
  rw [List.append_assoc]

/-- Telling something is the end of an action. -/
theorem ignores_announcing (events : List Event) (value : α) :
    Ignores (amid around) (do Store.announce events; return value : Action α) store := by
  apply Ignores.bind (ignores_announce events)
  intro _ after _
  exact .pure value

/-- A settlement may be counted before or after others that are apart from it. -/
theorem ignores_updateReputation (node : Key) (mark : Mark)
    (apart : ∀ other ∈ around.marks, node = other.1 → mark = .timeout ∨ other.2 = .timeout) :
    Ignores (amid around) (updateReputation node (mark.note around.now)) store := by
  unfold Ignores
  rw [updateReputation_run, updateReputation_run]
  have counted := store.config.rateAll_rate around.now (node, mark) apart store.reputations
  unfold onState amid
  dsimp only at counted ⊢
  rw [counted]

/-- Timeouts are counted in any order with the settlements besides. -/
theorem ignores_noteTimeout (job : Job) :
    Ignores (amid around) (noteTimeout around.now job) store := by
  unfold noteTimeout
  cases job.node with
  | none => exact .pure ()
  | some node => exact ignores_updateReputation node .timeout fun _ _ _ => .inl rfl

/-- A run of timeouts is counted in any order with the settlements besides. -/
theorem ignores_noteTimeouts (ended : List (Job × Event)) :
    Ignores (amid around)
      (ended.forM fun entry => noteTimeout around.now entry.1) store := by
  induction ended generalizing store with
  | nil => exact .pure _
  | cons first rest inductionHypothesis =>
      rw [List.forM_eq_forM, List.forM_cons]
      apply Ignores.bind (ignores_noteTimeout first.1)
      intro _ after _
      exact inductionHypothesis

end Blocks

section Operations

variable {around : Backdrop} {store : Store} {node id : Key}

/-- The creation of a job notices its market, its client and the entry of its id in the index only.
-/
theorem ignores_createJob {client : Key} {request : JobRequest}
    (inside : client ∈ around.footprint.accounts)
    (filed : around.footprint.newJob? = some request.id) :
    Ignores (amid around) (createJob around.footprint.market client request around.now) store := by
  have sameMarket : (store.amid around).venues.contains around.footprint.market =
      store.venues.contains around.footprint.market :=
    KeyMap.contains_splice (· = around.footprint.market) rfl _ _
  have sameId : (store.amid around).jobMarkets.contains request.id =
      store.jobMarkets.contains request.id :=
    KeyMap.contains_splice _ filed _ _
  refine .get ?_ ?_
  · dsimp only
    rw [sameMarket, sameId]
    rfl
  apply Ignores.demand
  intro _
  apply Ignores.refuse
  intro _
  apply Ignores.bind
  · apply ignores_onMarket
    intro venue _
    exact Desk.ignores_createJob _ inside request _ around.now
  intro answer after _
  apply Ignores.bind
  · apply Ignores.modify
    unfold amid
    dsimp only
    rw [KeyMap.insert_splice _ filed]
  intro _ after _
  exact ignores_announcing _ _

/-- The listing of a node notices its market only. -/
theorem ignores_listNode (node : Key) (stake : Stake) :
    Ignores (amid around) (listNode around.footprint.market node stake around.now) store := by
  refine .get rfl ?_
  apply Ignores.bind
  · apply ignores_onMarket
    intro venue _
    exact Desk.ignores_listNode _ node stake _ around.now
  intro answer after _
  exact ignores_announcing _ _

/-- The withdrawal of a node notices its market only. -/
theorem ignores_delistNode (node : Key) :
    Ignores (amid around) (delistNode around.footprint.market node around.now) store := by
  apply Ignores.bind
  · apply ignores_onMarket
    intro venue _
    exact Desk.ignores_delistNode _ node around.now
  intro event after _
  exact ignores_announce [event]

section OnJob

variable (indexed : store.jobMarkets.get? id = some around.footprint.market)
  (same : around.outer.jobMarkets.get? id = some around.footprint.market)

include indexed same

/-- A result notices the market of its job and the account of its node only. The settlements besides
complete no job of this node, so that its execution times are averaged in one order. -/
theorem ignores_finishJob (result : Digest) (inside : node ∈ around.footprint.accounts)
    (spares : Mark.Spares around.footprint.accounts around.marks) :
    Ignores (amid around) (finishJob id node result around.now) store := by
  apply ignores_onJob indexed same
  refine .get rfl ?_
  apply Ignores.bind
  · apply ignores_onMarket
    intro venue _
    exact Desk.ignores_finishJob _ id inside result _ around.now
  intro answer after _
  apply Ignores.bind
  · apply ignores_updateReputation node (.completion answer.1.executionSeconds answer.1.price)
    intro other member same
    obtain timeout | outside := spares other member
    · exact .inr timeout
    · rw [← same] at outside
      exact absurd inside outside
  intro _ after _
  exact ignores_announcing _ _

/-- A cancellation notices the market of its job and the account of its client only. -/
theorem ignores_cancelJob {client : Key} (inside : client ∈ around.footprint.accounts) :
    Ignores (amid around) (cancelJob id client around.now) store := by
  apply ignores_onJob indexed same
  apply Ignores.bind
  · apply ignores_onMarket
    intro venue _
    exact Desk.ignores_cancelJob _ id inside around.now
  intro answer after _
  exact ignores_announcing _ _

/-- A timeout notices the market of its job and the account of its client only. -/
theorem ignores_timeoutJob (inside : ∀ late,
    store.record? around.footprint.market id = some late →
      late.client ∈ around.footprint.accounts) :
    Ignores (amid around) (timeoutJob id around.now) store := by
  apply ignores_onJob indexed same
  refine .get rfl ?_
  apply Ignores.bind
  · apply ignores_onMarket
    intro venue found
    apply Desk.ignores_timeoutJob
    intro late recorded
    exact inside late (record?_eq_some.2 ⟨venue, found, recorded⟩)
  intro answer after _
  apply Ignores.bind (ignores_noteTimeout answer.1)
  intro _ after _
  exact ignores_announcing _ _

end OnJob

/-- A sweep notices its market and the accounts of the clients with open jobs only. -/
theorem ignores_sweep (sound : store.Sound) (inside : ∀ id job,
    store.record? around.footprint.market id = some job → job.isOpen = true →
      job.client ∈ around.footprint.accounts) :
    Ignores (amid around) (sweep around.footprint.market around.now) store := by
  refine .get rfl ?_
  apply Ignores.bind
  · apply ignores_onMarket
    intro venue found
    apply Desk.ignores_sweep (sound.ledgers _ venue found) store.config
    intro id job recorded unsettled
    exact inside id job (record?_eq_some.2 ⟨venue, found, recorded⟩) unsettled
  intro ended after _
  apply Ignores.bind (ignores_noteTimeouts ended)
  intro _ after _
  exact ignores_announcing _ _

end Operations

section Whole

variable {store : Store} {market : Key} {operation : Operation}

/-- A sweep may move money of the client of every open job. -/
theorem Sound.client_mem_accounts (sound : store.Sound) {id : Key} {job : Job}
    (recorded : store.record? market id = some job) (unsettled : job.isOpen = true) :
    job.client ∈ (Operation.sweep market).accounts store := by
  obtain ⟨venue, found, filed⟩ := record?_eq_some.1 recorded
  have ledger := sound.ledgers market venue found
  obtain ⟨rfl, -⟩ := ledger.filed id job filed
  have listed : job ∈ venue.jobsByAge := (Venue.mem_jobsByAge ledger job).2 filed
  rw [Operation.accounts, jobsOf_eq_ok.2 ⟨venue, found, rfl⟩]
  exact List.mem_map_of_mem (List.mem_filter.2 ⟨listed, unsettled⟩)

section Perform

variable {around : Backdrop} (fits : around.footprint = operation.footprint store market)

include fits

/-- An operation that names its market notices nothing outside of its footprint. -/
theorem ignores_named (sound : store.Sound) (names : operation.market? = some market) :
    Ignores (amid around) (operation.perform around.now) store := by
  have here : around.footprint.market = market := by rw [fits]; rfl
  have accounts : around.footprint.accounts = operation.accounts store := by rw [fits]; rfl
  have newJob : around.footprint.newJob? = operation.newJob? := by rw [fits]; rfl
  rw [← here] at names
  cases operation with
  | createJob market client request =>
      obtain rfl := Option.some.inj names
      apply Ignores.map
      apply ignores_createJob
      · rw [accounts]
        exact List.mem_singleton_self client
      · exact newJob
  | listNode market node stake =>
      obtain rfl := Option.some.inj names
      exact .map (ignores_listNode node stake)
  | delistNode market node =>
      obtain rfl := Option.some.inj names
      exact .map (ignores_delistNode node)
  | sweep market =>
      obtain rfl := Option.some.inj names
      apply Ignores.map
      apply ignores_sweep sound
      intro id job recorded unsettled
      rw [accounts]
      exact sound.client_mem_accounts recorded unsettled
  | _ => cases names

/-- An operation that names a job notices nothing outside of its footprint, as long as the index of
the outer store has the job in this market. -/
theorem ignores_recorded (sound : store.Sound)
    (spares : Mark.Spares around.footprint.accounts around.marks) {id : Key} {job : Job}
    (names : operation.job? = some id) (recorded : store.record? market id = some job)
    (same : around.outer.jobMarkets.get? id = some market) :
    Ignores (amid around) (operation.perform around.now) store := by
  have here : around.footprint.market = market := by rw [fits]; rfl
  have accounts : around.footprint.accounts = operation.accounts store := by rw [fits]; rfl
  have indexed := sound.indexed_iff.2 ⟨job, recorded⟩
  rw [← here] at indexed same
  cases operation with
  | finishJob id node result =>
      obtain rfl := Option.some.inj names
      apply Ignores.map
      apply ignores_finishJob indexed same result _ spares
      rw [accounts]
      exact List.mem_singleton_self node
  | cancelJob id client =>
      obtain rfl := Option.some.inj names
      apply Ignores.map
      apply ignores_cancelJob indexed same
      rw [accounts]
      exact List.mem_singleton_self client
  | timeoutJob id =>
      obtain rfl := Option.some.inj names
      apply Ignores.map
      apply ignores_timeoutJob indexed same
      intro late found
      rw [accounts, Operation.accounts, sound.job?_eq_some found]
      exact List.mem_singleton_self late.client
  | _ => cases names

/-- An operation on a market notices nothing outside of its footprint. -/
theorem ignores_perform (sound : store.Sound) (concerns : operation.Concerns store market)
    (spares : Mark.Spares around.footprint.accounts around.marks)
    (same : ∀ id job, operation.job? = some id → store.record? market id = some job →
      around.outer.jobMarkets.get? id = some market) :
    Ignores (amid around) (operation.perform around.now) store := by
  cases concerns with
  | market names => exact ignores_named fits sound names
  | job id job names recorded =>
      exact ignores_recorded fits sound spares names recorded (same id job names recorded)

/-- An operation on a market answers the same whatever its footprint stands before, and does the
same there. -/
theorem apply_amid (sound : store.Sound) (concerns : operation.Concerns store market)
    (spares : Mark.Spares around.footprint.accounts around.marks)
    (same : ∀ id job, operation.job? = some id → store.record? market id = some job →
      around.outer.jobMarkets.get? id = some market) :
    (store.amid around).apply around.now operation =
      ((store.apply around.now operation).1,
        (store.apply around.now operation).2.amid around) := by
  have ran := ignores_perform fits sound concerns spares same
  unfold Ignores EStateM.run at ran
  unfold apply
  rw [ran]
  cases operation.perform around.now store <;> rfl

end Perform

/-- Outside of a footprint, one store has the markets, the index and the balances of another. -/
structure Keeps (footprint : Footprint) (store after : Store) : Prop where
  venues : ∀ market, market ≠ footprint.market →
    after.venues.get? market = store.venues.get? market
  jobMarkets : ∀ id, footprint.newJob? ≠ some id →
    after.jobMarkets.get? id = store.jobMarkets.get? id
  balances : ∀ account, account ∉ footprint.accounts →
    after.balances.accounts.get? account = store.balances.accounts.get? account

/-- An operation that notices nothing outside of its footprint changes nothing there, as the store
itself may be the backdrop. -/
theorem Sound.keeps_apply (sound : store.Sound) (now : Int64)
    (concerns : operation.Concerns store market) :
    Keeps (operation.footprint store market) store (store.apply now operation).2 := by
  let around : Backdrop := ⟨operation.footprint store market, store, [], now⟩
  have itself : store.amid around = store.withPast store.events := by
    unfold amid BalanceBook.amid
    rw [KeyMap.splice_self, KeyMap.splice_self, KeyMap.splice_self]
    rfl
  have spares : Mark.Spares around.footprint.accounts around.marks := List.forall_mem_nil _
  have same := apply_amid rfl sound concerns spares fun id job names recorded =>
    sound.indexed_iff.2 ⟨job, recorded⟩
  rw [itself, apply_withPast] at same
  have kept := congrArg Prod.snd same
  constructor
  · intro other outside
    have venues := congrArg (fun store : Store => store.venues.get? other) kept
    dsimp only [amid] at venues
    rwa [KeyMap.get?_splice, if_neg outside] at venues
  · intro id outside
    have jobMarkets := congrArg (fun store : Store => store.jobMarkets.get? id) kept
    dsimp only [amid] at jobMarkets
    rwa [KeyMap.get?_splice, if_neg outside] at jobMarkets
  · intro account outside
    have balances := congrArg (fun store : Store => store.balances.accounts.get? account) kept
    dsimp only [amid, BalanceBook.amid] at balances
    rwa [KeyMap.get?_splice, if_neg outside] at balances

/-- Only the node that is asked to be paid completes a job. -/
theorem completer_mem_accounts {now : Int64} {reply : Reply} {changes : List Change} {seen : Change}
    {node : Key} (does : operation.Does now reply changes) (told : seen ∈ changes)
    (completes : seen.completer? = some node) : node ∈ operation.accounts store := by
  cases does with
  | finished node result job =>
      obtain rfl := List.mem_singleton.1 told
      obtain rfl := Option.some.inj completes
      exact List.mem_singleton_self node
  | swept market ended =>
      obtain ⟨job, -, rfl⟩ := List.mem_map.1 told
      cases completes
  | listed market node stake admission =>
      obtain rfl := List.mem_singleton.1 told
      cases admission <;> cases completes
  | _ =>
      obtain rfl := List.mem_singleton.1 told
      cases completes

/-- What an operation counts for nodes, it counts for the accounts of its footprint, but for
timeouts. -/
theorem Sound.marks_of_apply (sound : store.Sound) (now : Int64) (operation : Operation) :
    ∃ marks, Mark.Confined (operation.accounts store) marks ∧
      (store.apply now operation).2.reputations =
        store.config.rateAll now marks store.reputations := by
  cases answer : (store.apply now operation).1 with
  | error cause =>
      refine ⟨[], List.forall_mem_nil _, ?_⟩
      rw [(apply_of_error now sound answer).2]
      rfl
  | ok reply =>
      obtain ⟨changes, does, steps⟩ := steps_of_apply now sound answer
      obtain ⟨marks, rated, listed⟩ := steps.marks
      refine ⟨marks, ?_, rated⟩
      intro mark member
      refine (listed mark member).imp_right ?_
      rintro ⟨seen, told, completes⟩
      exact completer_mem_accounts does told completes

end Whole

end Store

end ComputeMarket
