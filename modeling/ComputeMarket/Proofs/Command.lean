import ComputeMarket.Proofs.Format
import ComputeMarket.Proofs.Restart
import ComputeMarket.Proofs.Store.Record

/-
This file says what a command asks of a store and how the answer is reported, and proves that
carrying out the command comes to that.
-/

namespace ComputeMarket

namespace Store

/-- A market beside the balance of its vault. -/
def withVault? (store : Store) (market : Market) : Option MarketView :=
  (store.vaultBalance market.id).toOption.map fun balance => ⟨market, balance⟩

/-- What the queries tell about one market. -/
def exhibit? (store : Store) (id : Key) : Option MarketView :=
  (store.market? id).bind store.withVault?

/-- What the queries tell about all markets. -/
def exhibits? (store : Store) : Option (List MarketView) := store.markets.mapM store.withVault?

end Store

namespace Command

/-- The operation behind a command, if it is not a question. -/
def operation? : Command → Option Operation
  | deposit account amount => some (.deposit account amount)
  | createMarket authority params => some (.createMarket authority params)
  | createJob order => order.id.map fun id =>
    .createJob order.market order.client ⟨id, order.definition, order.vram, order.gpu⟩
  | finishJob id node result => some (.finishJob id node result)
  | cancelJob id client => some (.cancelJob id client)
  | timeoutJob id => some (.timeoutJob id)
  | listNode market node stake => some (.listNode market node stake)
  | delistNode market node => some (.delistNode market node)
  | sweep market => some (.sweep market)
  | keygen | balance _ | showMarket _ | listMarkets | showJob _ | listJobs _ | showNode _ => none

/-- What is reported when the operation has this reply. A new market is shown as it is then. -/
def report? (after : Store) : Command → Reply → Option Report
  | deposit account _, .balance total => some (.balance account total)
  | createMarket .., .marketOpened id => (after.exhibit? id).map .market
  | createJob order, .jobAdmitted admission => order.id.map fun id => .jobCreated id admission
  | finishJob .., .jobSettled job => some (.job job)
  | cancelJob .., .jobSettled job => some (.job job)
  | timeoutJob _, .jobSettled job => some (.job job)
  | listNode _ node _, .nodeAdmitted admission => some (.nodeListed node admission)
  | delistNode market node, .nodeDelisted =>
    some (.message s!"Delisted node {node} from market {market}" true)
  | sweep market, .swept ended => some (.swept market ended)
  | _, _ => none

/-- What is reported on a question, if what is to be shown is there. -/
def answer? (store : Store) : Command → Option Report
  | balance account => some (.balance account (store.balance account))
  | showMarket id => (store.exhibit? id).map .market
  | listMarkets => store.exhibits?.map .markets
  | showJob id => (store.job? id).map .job
  | listJobs market => (store.jobsOf market).toOption.map (.jobs market)
  | showNode node =>
    some (.node node (store.balance node) ((store.reputation? node).getD .fresh))
  | _ => none

/-- Whether what a question is about is there. -/
def finds (store : Store) : Command → Bool
  | showMarket id => (store.market? id).isSome
  | showJob id => (store.job? id).isSome
  | listJobs market => (store.jobsOf market).isOk
  | _ => true

/-- No key has to be made up: no identity is asked for, and a new job has its id. -/
def NeedsNoKey : Command → Prop
  | keygen => False
  | createJob order => order.id.isSome = true
  | _ => True

instance : DecidablePred NeedsNoKey := fun command =>
  match command with
  | keygen => isFalse id
  | createJob order => inferInstanceAs (Decidable (order.id.isSome = true))
  | deposit .. | balance _ | createMarket .. | showMarket _ | listMarkets | showJob _ | listJobs _
  | finishJob .. | cancelJob .. | timeoutJob _ | listNode .. | delistNode .. | showNode _
  | sweep _ => isTrue trivial

/-- The commands that change the ledger are those with an operation behind them. -/
theorem mutates_eq {command : Command} (determined : command.NeedsNoKey) :
    command.mutates = command.operation?.isSome := by
  cases command with
  | keygen => exact determined.elim
  | createJob order =>
      change true = (order.id.map _).isSome
      rw [Option.isSome_map]
      exact Eq.symm determined
  | _ => rfl

end Command

namespace Store

variable {store : Store} {command : Command} {now : Int64} {fresh : Key}

/-- The call behind a command: what there is to report if it succeeds, and the store after it. -/
def consult (store : Store) (now : Int64) (command : Command) : Option Report × Store :=
  match command.operation? with
  | some operation =>
    match store.apply now operation with
    | (.ok reply, after) => (command.report? after reply, after)
    | (.error _, after) => (none, after)
  | none => (command.answer? store, store)

/-- Whether the call behind a command succeeds. -/
def grants (store : Store) (now : Int64) (command : Command) : Bool :=
  match command.operation? with
  | some operation => (store.apply now operation).1.isOk
  | none => command.finds store

section Queries

variable (sound : store.Sound)

include sound

/-- An open market is shown with the balance of its own vault. -/
theorem Sound.withVault?_market {id : Key} {venue : Venue}
    (found : store.venues.get? id = some venue) :
    store.withVault? venue.market = some venue.view := by
  unfold withVault? vaultBalance venue?
  rw [sound.named id venue found, found]
  rfl

/-- The queries show a market as its ledger has it. -/
theorem Sound.exhibit?_eq (id : Key) : store.exhibit? id = store.view? id := by
  unfold exhibit? market? view?
  cases found : store.venues.get? id with
  | none => rfl
  | some venue => exact sound.withVault?_market found

/-- Every market has a vault to be shown with. -/
theorem Sound.exhibits?_eq : store.exhibits? = some store.views := by
  have split : store.markets = store.views.map MarketView.market := by
    unfold markets views
    rw [List.map_map]
    rfl
  unfold exhibits?
  rw [split]
  apply Json.mapM_map_eq_some
  intro view shown
  unfold views at shown
  obtain ⟨venue, member, rfl⟩ := List.mem_map.1 shown
  obtain ⟨id, found⟩ := KeyMap.mem_values.1 member
  exact sound.withVault?_market found

end Queries

/-- A new market is there to be shown. -/
theorem market?_of_opened {authority id : Key} {price : Amount} {after : Store}
    (step : Step now store (.told (.marketCreated id authority price now)) after) :
    ∃ market, after.market? id = some market := by
  generalize told : Event.marketCreated id authority price now = event at step
  cases step with
  | opened _ _ params fresh valid =>
      cases told
      unfold market?
      rw [KeyMap.get?_insert_self]
      exact ⟨_, rfl⟩
  | traded market venue event desk found step =>
      cases step with
      | nodeQueued | headMatched | nodeDelisted => cases told
      | settled job ended payee event rest total recorded settlement =>
          cases settlement <;> cases told

/-- Whenever an operation succeeds there is something to report. -/
theorem Sound.report?_isSome (sound : store.Sound) {operation : Operation} {reply : Reply}
    (asked : command.operation? = some operation)
    (succeeded : (store.apply now operation).1 = .ok reply) :
    (command.report? (store.apply now operation).2 reply).isSome = true := by
  obtain ⟨changes, does, steps⟩ := steps_of_apply now sound succeeded
  have soundAfter := sound.apply now operation
  generalize (store.apply now operation).2 = after at steps soundAfter
  cases command with
  | createMarket authority params =>
      cases asked
      cases does with
      | opened _ id =>
          obtain ⟨market, found⟩ := market?_of_opened steps.single
          change ((after.exhibit? id).map _).isSome = true
          rw [soundAfter.exhibit?_eq]
          unfold market? at found
          obtain ⟨venue, filed, -⟩ := Option.map_eq_some_iff.1 found
          unfold view?
          rw [filed]
          rfl
  | createJob order =>
      obtain ⟨id, given, rfl⟩ := Option.map_eq_some_iff.1 asked
      cases does
      change (order.id.map _).isSome = true
      rw [given]
      rfl
  | deposit | finishJob | cancelJob | timeoutJob | listNode | delistNode | sweep =>
      cases asked
      cases does
      rfl
  | keygen | balance | showMarket | listMarkets | showJob | listJobs | showNode => cases asked

/-- A question has an answer exactly when what it is about is there. -/
theorem Sound.isSome_answer? (sound : store.Sound) (determined : command.NeedsNoKey)
    (asked : command.operation? = none) :
    (command.answer? store).isSome = command.finds store := by
  cases command with
  | showMarket id =>
      change ((store.exhibit? id).map _).isSome = (store.market? id).isSome
      rw [sound.exhibit?_eq]
      unfold view? market?
      rw [Option.isSome_map, Option.isSome_map, Option.isSome_map]
  | listMarkets =>
      change (store.exhibits?.map _).isSome = true
      rw [sound.exhibits?_eq]
      rfl
  | showJob id =>
      change ((store.job? id).map _).isSome = (store.job? id).isSome
      rw [Option.isSome_map]
  | listJobs market =>
      change ((store.jobsOf market).toOption.map _).isSome = (store.jobsOf market).isOk
      cases store.jobsOf market <;> rfl
  | balance | showNode => rfl
  | keygen => exact determined.elim
  | createJob order =>
      change order.id.isSome = true at determined
      rw [Option.map_eq_none_iff.1 asked] at determined
      cases determined
  | deposit | createMarket | finishJob | cancelJob | timeoutJob | listNode | delistNode | sweep =>
      cases asked

/-- The call has something to report exactly when it succeeds. -/
theorem Sound.isSome_consult (sound : store.Sound) (determined : command.NeedsNoKey) :
    (store.consult now command).1.isSome = store.grants now command := by
  unfold consult grants
  cases asked : command.operation? with
  | none => exact sound.isSome_answer? determined asked
  | some operation =>
      dsimp only
      have reported (reply : Reply) (succeeded : (store.apply now operation).1 = .ok reply) :=
        sound.report?_isSome asked succeeded
      generalize store.apply now operation = result at reported
      obtain ⟨answer, after⟩ := result
      cases answer with
      | error cause => rfl
      | ok reply => exact reported reply rfl

/-- A call that does not succeed changes nothing, and neither does a question. -/
theorem Sound.consult_kept (sound : store.Sound)
    (idle : command.operation? = none ∨ (store.consult now command).1 = none) :
    (store.consult now command).2 = store := by
  unfold consult at idle ⊢
  cases asked : command.operation? with
  | none => rfl
  | some operation =>
      rw [asked] at idle
      dsimp only at idle ⊢
      have reported (reply : Reply) (succeeded : (store.apply now operation).1 = .ok reply) :=
        sound.report?_isSome asked succeeded
      have kept (cause : MarketError) (failed : (store.apply now operation).1 = .error cause) :=
        apply_of_error now sound failed
      generalize store.apply now operation = result at reported kept idle
      obtain ⟨answer, after⟩ := result
      cases answer with
      | error cause => exact (kept cause rfl).2
      | ok reply =>
          have some := reported reply rfl
          obtain no | no := idle
          · cases no
          · dsimp only at some no
            rw [no] at some
            cases some

/-- A call leaves a store as it is or carries out an operation on it. -/
theorem consult_after (store : Store) (now : Int64) (command : Command) :
    (store.consult now command).2 = store ∨
      ∃ operation, (store.consult now command).2 = (store.apply now operation).2 := by
  unfold consult
  cases command.operation? with
  | none => exact .inl rfl
  | some operation =>
      refine .inr ⟨operation, ?_⟩
      dsimp only
      generalize store.apply now operation = result
      obtain ⟨answer, after⟩ := result
      cases answer <;> rfl

/-- A call leaves a sound store. -/
theorem Sound.consult (sound : store.Sound) (now : Int64) (command : Command) :
    (store.consult now command).2.Sound := by
  obtain same | ⟨operation, applied⟩ := consult_after store now command
  · rw [same]
    exact sound
  · rw [applied]
    exact sound.apply now operation

theorem Sound.config_consult (sound : store.Sound) (now : Int64) (command : Command) :
    (store.consult now command).2.config = store.config := by
  obtain same | ⟨operation, applied⟩ := consult_after store now command
  · rw [same]
  · rw [applied]
    exact sound.config_after [.perform now operation]

/-- No call looks at the events that wait. -/
theorem consult_withPast (past : List Event) (store : Store) (now : Int64) (command : Command) :
    (store.withPast past).consult now command =
      ((store.consult now command).1, (store.consult now command).2.withPast past) := by
  unfold consult
  cases asked : command.operation? with
  | none =>
      dsimp only
      cases command <;> rfl
  | some operation =>
      dsimp only
      rw [apply_withPast]
      generalize store.apply now operation = result
      obtain ⟨answer, after⟩ := result
      cases answer with
      | error cause => rfl
      | ok reply =>
          dsimp only
          cases command <;> cases reply <;> rfl

end Store

namespace Run

variable {α : Type} {store : Store} {command : Command} {operation : Operation} {now : Int64}

/-- A run reports what a call has to report and leaves the store that the call leaves, or it fails
where the call has nothing to report. -/
def Matches (run : Run Report) (store : Store) : Option Report × Store → Prop
  | (some report, after) => run.run store = .ok report after
  | (none, after) => ∃ failure, run.run store = .error failure after

/-- A market is reported as it is, or its absence is the failure. -/
theorem showMarket_matches (id : Key) (store : Store) :
    (showMarket id).Matches store ((store.view? id).map .market, store) := by
  unfold showMarket Matches
  simp only [EStateM.run_bind, EStateM.run_get]
  cases store.view? id with
  | none => exact ⟨_, rfl⟩
  | some view => rfl

theorem showJob_matches (id : Key) (store : Store) :
    (showJob id).Matches store ((store.job? id).map .job, store) := by
  unfold showJob Matches
  simp only [EStateM.run_bind, EStateM.run_get]
  cases store.job? id with
  | none => exact ⟨_, rfl⟩
  | some job => rfl

/-- An action of the store is run as it is, and its cause becomes a failure of the run. -/
theorem ofAction_run (action : Action α) (store : Store) :
    (ofAction action).run store =
      match action.run store with
      | .ok value after => .ok value after
      | .error cause after => .error (.rejected cause) after := by
  unfold ofAction
  rw [Action.adaptExcept_run]
  cases action.run store <;> rfl

/-- A run that carries out an operation and reports on its reply. -/
theorem matches_of_operation {action : Action α} (wrap : α → Reply) {tell : α → Run Report}
    (asked : command.operation? = some operation)
    (performed : operation.perform now = wrap <$> action)
    (told : ∀ value after, store.apply now operation = (.ok (wrap value), after) →
      (tell value).Matches after (command.report? after (wrap value), after)) :
    (ofAction action >>= tell).Matches store (store.consult now command) := by
  unfold Store.consult
  rw [asked]
  dsimp only
  cases ran : action.run store with
  | error cause after =>
      rw [Store.apply_of_run_error performed ran]
      refine ⟨.rejected cause, ?_⟩
      rw [EStateM.run_bind, ofAction_run, ran]
  | ok value after =>
      have applied := Store.apply_of_run_ok performed ran
      have matched := told value after applied
      rw [applied]
      unfold Matches at matched ⊢
      rw [EStateM.run_bind, ofAction_run, ran]
      exact matched

end Run

namespace Command

variable {store : Store} {command : Command}

theorem listJobs_matches (market : Key) (now : Int64) (fresh : Key) (store : Store) :
    ((listJobs market).perform now fresh).Matches store
      ((store.jobsOf market).toOption.map (.jobs market), store) := by
  unfold perform
  simp only [Run.Matches, EStateM.run_bind, EStateM.run_get]
  cases store.jobsOf market with
  | error cause => exact ⟨.rejected cause, rfl⟩
  | ok jobs => rfl

/-- A new market is shown as the creation left it. -/
theorem createMarket_matches (sound : store.Sound) (authority : Key) (params : MarketParams)
    (now : Int64) (fresh : Key) :
    ((createMarket authority params).perform now fresh).Matches store
      (store.consult now (.createMarket authority params)) := by
  apply Run.matches_of_operation .marketOpened rfl rfl
  intro id after opened
  have soundAfter := sound.apply now (.createMarket authority params)
  rw [opened] at soundAfter
  change (Run.showMarket id).Matches after ((after.exhibit? id).map .market, after)
  rw [soundAfter.exhibit?_eq]
  exact Run.showMarket_matches id after

/-- Carrying out a command comes to the call behind it. -/
theorem perform_matches (sound : store.Sound) (determined : command.NeedsNoKey) (now : Int64)
    (fresh : Key) : (command.perform now fresh).Matches store (store.consult now command) := by
  cases command with
  | keygen => exact determined.elim
  | balance account | showNode node => rfl
  | showMarket id =>
      change (Run.showMarket id).Matches store ((store.exhibit? id).map .market, store)
      rw [sound.exhibit?_eq]
      exact Run.showMarket_matches id store
  | listMarkets =>
      change Run.Matches _ store (store.exhibits?.map .markets, store)
      rw [sound.exhibits?_eq]
      rfl
  | showJob id => exact Run.showJob_matches id store
  | listJobs market => exact listJobs_matches market now fresh store
  | deposit account amount =>
      exact Run.matches_of_operation .balance rfl rfl fun total after _ => rfl
  | createMarket authority params => exact createMarket_matches sound authority params now fresh
  | createJob order =>
      obtain ⟨market, client, definition, vram, gpu, given⟩ := order
      cases given with
      | none => cases determined
      | some id => exact Run.matches_of_operation .jobAdmitted rfl rfl fun admission after _ => rfl
  | finishJob | cancelJob | timeoutJob =>
      exact Run.matches_of_operation .jobSettled rfl rfl fun job after _ => rfl
  | listNode market node stake =>
      exact Run.matches_of_operation .nodeAdmitted rfl rfl fun admission after _ => rfl
  | delistNode market node =>
      exact Run.matches_of_operation (fun _ => .nodeDelisted) rfl rfl fun _ after _ => rfl
  | sweep market =>
      exact Run.matches_of_operation .swept rfl rfl fun ended after _ => rfl

end Command

end ComputeMarket
