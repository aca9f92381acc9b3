import ComputeMarket.Proofs.Store.Step

/-
This file proves that an operation on a sound store either refuses and changes nothing, or makes
changes that are listed for the store, and says which ones and why.
-/

namespace ComputeMarket

/-- The event of a job that was let in. -/
def JobAdmission.event (market job : Key) (now : Int64) : JobAdmission → Event
  | .queued position => .jobQueued market job position now
  | .matched node => .jobMatched market job node now

/-- What an operation that succeeds is seen to do. -/
inductive Operation.Does (now : Int64) : Operation → Reply → List Change → Prop
  | opened (authority id : Key) (params : MarketParams) :
      Does now (.createMarket authority params) (.marketOpened id)
        [.told (.marketCreated id authority params.price now)]
  | admitted (market client : Key) (request : JobRequest) (admission : JobAdmission) :
      Does now (.createJob market client request) (.jobAdmitted admission)
        [.entered (admission.event market request.id now)]
  | listed (market node : Key) (stake : Stake) (admission : NodeAdmission) :
      Does now (.listNode market node stake) (.nodeAdmitted admission)
        [.told (Desk.listing market node now admission)]
  | delisted (market node : Key) :
      Does now (.delistNode market node) .nodeDelisted [.told (.nodeDelisted market node now)]
  | finished (node : Key) (result : Digest) (job : Job) :
      Does now (.finishJob job.id node result) (.jobSettled job)
        [.told (.jobCompleted job.market job.id node result job.price now)]
  | cancelled (client : Key) (job : Job) :
      Does now (.cancelJob job.id client) (.jobSettled job)
        [.told (.jobStopped job.market job.id client job.price now)]
  | timedOut (job : Job) :
      Does now (.timeoutJob job.id) (.jobSettled job) [.told (job.timeoutEvent now)]
  | swept (market : Key) (ended : List Job) :
      Does now (.sweep market) (.swept (ended.map Job.id))
        (ended.map fun job => .told (job.timeoutEvent now))
  | paid (account : Key) (amount total : Amount) :
      Does now (.deposit account amount) (.balance total) [.paid account amount]

namespace Operation

/-- The market that an operation names. -/
def market? : Operation → Option Key
  | createJob market .. | listNode market .. | delistNode market .. | sweep market => some market
  | _ => none

/-- The job that an operation looks up. -/
def job? : Operation → Option Key
  | finishJob job .. | cancelJob job _ | timeoutJob job => some job
  | _ => none

/-- Why an operation is refused. -/
inductive Refused (now : Int64) (store : Store) : Operation → MarketError → Prop
  | unknownMarket (operation : Operation) (market : Key)
      (names : operation.market? = some market) (missing : store.venues.get? market = none) :
      Refused now store operation (.marketNotFound market)
  | unknownJob (operation : Operation) (job : Key) (names : operation.job? = some job)
      (missing : store.jobMarkets.get? job = none) :
      Refused now store operation (.jobNotFound job)
  | terms (authority : Key) (params : MarketParams) (cause : MarketError)
      (invalid : params.validate = .error cause) :
      Refused now store (.createMarket authority params) cause
  | exhausted (authority : Key) (params : MarketParams)
      (taken : Store.freshId? store.venues authority 0x10000000000000000
        (UInt64.ofNat store.venues.size) = none) :
      Refused now store (.createMarket authority params)
        (.duplicate .market (Market.idOf authority (UInt64.ofNat store.venues.size)))
  | usedJob (market client : Key) (request : JobRequest)
      (used : store.jobMarkets.contains request.id = true) :
      Refused now store (.createJob market client request) (.duplicate .job request.id)
  | entry (market client : Key) (request : JobRequest) (venue : Venue) (cause : MarketError)
      (found : store.venues.get? market = some venue)
      (refused : Desk.EntryRefusal client request store.config.capacity ⟨venue, store.balances⟩
        cause) :
      Refused now store (.createJob market client request) cause
  | listing (market node : Key) (stake : Stake) (venue : Venue) (cause : MarketError)
      (found : store.venues.get? market = some venue)
      (refused : Desk.ListingRefusal node stake store.config.capacity ⟨venue, store.balances⟩
        cause) :
      Refused now store (.listNode market node stake) cause
  | delisting (market node : Key) (venue : Venue) (cause : MarketError)
      (found : store.venues.get? market = some venue)
      (refused : Desk.DelistingRefusal node ⟨venue, store.balances⟩ cause) :
      Refused now store (.delistNode market node) cause
  | finish (job node : Key) (result : Digest) (market : Key) (venue : Venue)
      (cause : MarketError) (indexed : store.jobMarkets.get? job = some market)
      (found : store.venues.get? market = some venue)
      (refused : Desk.FinishRefusal store.config now job node result ⟨venue, store.balances⟩
        cause) :
      Refused now store (.finishJob job node result) cause
  | cancel (job client market : Key) (venue : Venue) (cause : MarketError)
      (indexed : store.jobMarkets.get? job = some market)
      (found : store.venues.get? market = some venue)
      (refused : Desk.CancelRefusal job client ⟨venue, store.balances⟩ cause) :
      Refused now store (.cancelJob job client) cause
  | timeout (job market : Key) (venue : Venue) (cause : MarketError)
      (indexed : store.jobMarkets.get? job = some market)
      (found : store.venues.get? market = some venue)
      (refused : Desk.TimeoutRefusal store.config now job ⟨venue, store.balances⟩ cause) :
      Refused now store (.timeoutJob job) cause
  | nothingPaid (account : Key) :
      Refused now store (.deposit account .zero) (.invalidInput .zeroDeposit)
  | overflow (account : Key) (amount : Amount) (large : 0x10000000000000000 ≤
        (store.balances.balance account).base + amount.base) :
      Refused now store (.deposit account amount) (.overflow (.account account))

end Operation

namespace Store

variable {store : Store} {market : Key}

/-- A transition of a market sees the market and the balances, and what it leaves is filed. -/
theorem onMarket_run {α : Type} (transition : Transition α) :
    (onMarket market transition).run store =
      match store.venues.get? market with
      | none => .error (.marketNotFound market) store
      | some venue =>
        match transition.run ⟨venue, store.balances⟩ with
        | .ok value desk => .ok value (store.file market desk)
        | .error cause desk => .error cause (store.file market desk) := rfl

/-- Filing a desk as it was found changes nothing. -/
theorem file_same {desk : Desk} (found : store.venues.get? market = some desk.venue)
    (balances : store.balances = desk.balances) : store.file market desk = store := by
  unfold file
  rw [KeyMap.insert_same found, ← balances]

/-- What a transition does on the desk of a market, it does for the store. -/
theorem onMarket_outcome {α : Type} {transition : Transition α} {done : Venue → α → Desk → Prop}
    {refused : Venue → MarketError → Prop}
    (outcome : ∀ venue, store.venues.get? market = some venue →
      AllOrNothing transition ⟨venue, store.balances⟩ (done venue) (refused venue)) :
    AllOrNothing (onMarket market transition) store
      (fun value after => ∃ venue desk, store.venues.get? market = some venue ∧
        done venue value desk ∧ after = store.file market desk)
      (fun cause => cause = .marketNotFound market ∧ store.venues.get? market = none ∨
        ∃ venue, store.venues.get? market = some venue ∧ refused venue cause) := by
  unfold AllOrNothing
  rw [onMarket_run]
  cases found : store.venues.get? market with
  | none => exact ⟨.inl ⟨rfl, rfl⟩, rfl⟩
  | some venue =>
      dsimp only
      have result := outcome venue found
      cases ran : transition.run ⟨venue, store.balances⟩ with
      | ok value desk => exact ⟨venue, desk, rfl, result.of_ok ran, rfl⟩
      | error cause desk =>
          obtain ⟨why, same⟩ := result.of_error ran
          subst same
          exact ⟨.inr ⟨venue, rfl, why⟩, file_same found rfl⟩

/-- The market of a job is looked up in the index and nothing changes. -/
theorem marketOfJob_outcome (job : Key) :
    AllOrNothing (marketOfJob job) store
      (fun market after => after = store ∧ store.jobMarkets.get? job = some market)
      (fun cause => cause = .jobNotFound job ∧ store.jobMarkets.get? job = none) := by
  unfold AllOrNothing marketOfJob
  simp only [EStateM.run_bind, EStateM.run_get]
  cases store.jobMarkets.get? job with
  | none => exact ⟨⟨rfl, rfl⟩, rfl⟩
  | some market => exact ⟨rfl, rfl⟩

/-- A reputation is updated where reputations are kept. -/
theorem updateReputation_run (node : Key) (update : Reputation → Reputation) :
    (updateReputation node update).run store =
      .ok () { store with reputations := store.config.rate node update store.reputations } := by
  unfold updateReputation Config.rate
  rw [EStateM.run_modify]
  split <;> rfl

theorem noteTimeout_run (now : Int64) (job : Job) :
    (noteTimeout now job).run store =
      .ok () { store with
        reputations := store.config.rateTimeout now job.node store.reputations } := by
  unfold noteTimeout Config.rateTimeout
  cases job.node with
  | none => rfl
  | some node => exact updateReputation_run node _

/-- The reputations after timeouts, one after the other. -/
def rateTimeouts (config : Config) (now : Int64) (ended : List (Job × Event))
    (reputations : KeyMap Reputation) : KeyMap Reputation :=
  ended.foldl (fun reputations entry => config.rateTimeout now entry.1.node reputations) reputations

/-- Timeouts are noted one after the other. -/
theorem noteTimeouts_run (store : Store) (now : Int64) (ended : List (Job × Event)) :
    (ended.forM fun entry => noteTimeout now entry.1).run store =
      .ok () { store with
        reputations := rateTimeouts store.config now ended store.reputations } := by
  induction ended generalizing store with
  | nil => rfl
  | cons entry rest inductionHypothesis =>
      rw [List.forM_eq_forM, List.forM_cons, EStateM.run_bind, noteTimeout_run]
      exact inductionHypothesis _

/-- Timeouts on the desk of a market are changes of the store, one for each. -/
theorem steps_of_timeouts {config : Config} {now : Int64} {desk after : Desk} {ids : List Key}
    {ended : List (Job × Event)} (timeouts : Desk.Timeouts config now desk ids ended after)
    (sameConfig : store.config = config) (found : store.venues.get? market = some desk.venue)
    (balances : store.balances = desk.balances) :
    Steps now store (ended.map fun entry => .told (entry.1.timeoutEvent now))
      { store.file market after with
        reputations := rateTimeouts config now ended store.reputations
        events := store.events ++ ended.map Prod.snd } := by
  induction timeouts generalizing store with
  | none desk =>
      have unchanged : store.file market desk = store := file_same found balances
      rw [unchanged, List.map_nil, List.map_nil, List.append_nil]
      exact .none store
  | passed id cause refused rest inductionHypothesis =>
      exact inductionHypothesis sameConfig found balances
  | @ended desk middle after ids others late first recorded rest inductionHypothesis =>
      have sameDesk : (⟨desk.venue, store.balances⟩ : Desk) = desk := by rw [balances]
      let next : Store :=
        { store.file market middle with
          reputations := config.rateTimeout now late.node store.reputations
          events := store.events ++ [late.timeoutEvent now] }
      have step : Step now store (.told (late.timeoutEvent now)) next := by
        subst sameConfig
        exact .traded market desk.venue _ middle found (by rw [sameDesk]; exact first)
      have later := @inductionHypothesis next sameConfig (KeyMap.get?_insert_self ..) rfl
      unfold file at later ⊢
      simp only [next, file, KeyMap.insert_insert, List.append_assoc] at later
      exact .more step later

/-- A listing settles no job. -/
theorem rateEvent_listing (config : Config) (now : Int64) (jobs : KeyMap Job) (market node : Key)
    (admission : NodeAdmission) (reputations : KeyMap Reputation) :
    config.rateEvent now jobs (Desk.listing market node now admission) reputations =
      reputations := by
  cases admission <;> rfl

/-- An operation succeeds at a time. -/
def Accepts (store : Store) (now : Int64) (operation : Operation) : Prop :=
  ∃ reply, (store.apply now operation).1 = .ok reply

section Runs

variable {α : Type} {now : Int64} {operation : Operation} {action : Action α} {wrap : α → Reply}
  (performed : operation.perform now = wrap <$> action)

include performed

/-- An operation that runs through answers with its value and leaves what it left. -/
theorem apply_of_run_ok {value : α} {after : Store} (ran : action.run store = .ok value after) :
    store.apply now operation = (.ok (wrap value), after) := by
  have done : operation.perform now store = .ok (wrap value) after := by
    rw [performed]
    change (wrap <$> action).run store = _
    rw [map_eq_pure_bind, EStateM.run_bind, ran]
    rfl
  unfold apply
  rw [done]

theorem apply_of_run_error {cause : MarketError} {after : Store}
    (ran : action.run store = .error cause after) :
    store.apply now operation = (.error cause, after) := by
  have failed : operation.perform now store = .error cause after := by
    rw [performed]
    change (wrap <$> action).run store = _
    rw [map_eq_pure_bind, EStateM.run_bind, ran]
  unfold apply
  rw [failed]

end Runs

/-- What an operation does all or nothing of, it has done when it succeeds. -/
theorem apply_of_ok {now : Int64} {operation : Operation} {reply : Reply}
    {done : Reply → Store → Prop} {refused : MarketError → Prop}
    (outcome : AllOrNothing (operation.perform now) store done refused)
    (succeeded : (store.apply now operation).1 = .ok reply) :
    done reply (store.apply now operation).2 := by
  unfold apply at succeeded ⊢
  unfold AllOrNothing EStateM.run at outcome
  cases ran : operation.perform now store with
  | ok answer after =>
      rw [ran] at outcome succeeded
      cases succeeded
      exact outcome
  | error cause after =>
      rw [ran] at succeeded
      cases succeeded

section Operations

variable {job : Key} (now : Int64)

/-- An id that is found belongs to no market. -/
theorem freshId?_eq_some {venues : KeyMap Venue} {authority id : Key} {attempts : Nat}
    {nonce : UInt64} (searched : freshId? venues authority attempts nonce = some id) :
    venues.get? id = none := by
  induction attempts generalizing nonce with
  | zero => cases searched
  | succ attempts inductionHypothesis =>
      unfold freshId? at searched
      dsimp only at searched
      split at searched
      · exact inductionHypothesis searched
      · rename_i free
        rw [Option.some.injEq] at searched
        rw [← searched]
        exact KeyMap.contains_eq_false.1 (Bool.eq_false_iff.2 free)

/-- A market is opened with an id that was free, or it is refused and nothing changes. -/
theorem createMarket_outcome (authority : Key) (params : MarketParams) :
    AllOrNothing (createMarket authority params now) store
      (fun id after => Step now store (.told (.marketCreated id authority params.price now)) after)
      (Operation.Refused now store (.createMarket authority params)) := by
  unfold createMarket
  refine .of_accept (fun cause invalid => .terms authority params cause invalid) ?_
  intro done valid
  apply AllOrNothing.of_get
  cases searched : freshId? store.venues authority 0x10000000000000000
    (UInt64.ofNat store.venues.size) with
  | none =>
      unfold AllOrNothing
      simp only [searched]
      exact ⟨.exhausted authority params searched, rfl⟩
  | some id =>
      unfold AllOrNothing
      simp only [searched]
      exact .opened id authority params (freshId?_eq_some searched) valid

/-- A deposit is added to its account, or it is refused and nothing changes. -/
theorem deposit_outcome (account : Key) (amount : Amount) :
    AllOrNothing (deposit account amount) store
      (fun _ after => Step now store (.paid account amount) after)
      (Operation.Refused now store (.deposit account amount)) := by
  unfold deposit
  apply AllOrNothing.of_refuse
  · intro empty
    obtain rfl := (Amount.isZero_iff amount).1 empty
    exact .nothingPaid account
  intro filled
  apply AllOrNothing.of_get
  apply AllOrNothing.of_accept
  · intro cause refused
    obtain ⟨rfl, large⟩ := BalanceBook.credit_eq_error refused
    exact .overflow account amount large
  intro answer credited
  obtain ⟨total, balances⟩ := answer
  obtain ⟨exact, same⟩ := BalanceBook.credit_eq_ok.1 credited
  subst same
  have positive : amount ≠ .zero := fun zero => filled ((Amount.isZero_iff _).2 zero)
  exact .of_run rfl (.paid account amount total positive exact)

variable (sound : store.Sound)

include sound

/-- A new job enters the market that it names, for the client that it names, and the index. -/
theorem createJob_entry (client : Key) (request : JobRequest) :
    AllOrNothing (createJob market client request now) store
      (fun admission after => ∃ venue desk, store.venues.get? market = some venue ∧
        store.jobMarkets.get? request.id = none ∧
        Desk.Entry client request store.config.capacity now ⟨venue, store.balances⟩ admission
          (admission.event market request.id now) desk ∧
        after = { store.file market desk with
          jobMarkets := store.jobMarkets.insert request.id market
          events := store.events ++ [admission.event market request.id now] })
      (Operation.Refused now store (.createJob market client request)) := by
  unfold createJob
  apply AllOrNothing.of_get
  apply AllOrNothing.of_demand
  · intro unknown
    exact .unknownMarket _ market rfl (KeyMap.contains_eq_false.1 (Bool.eq_false_iff.2 unknown))
  intro known
  refine .of_refuse (fun used => .usedJob market client request used) ?_
  intro unused
  have outcome := onMarket_outcome fun venue (found : store.venues.get? market = some venue) =>
    Desk.createJob_outcome ⟨venue, store.balances⟩ (sound.ledgers market venue found) client request
      store.config.capacity now
  apply outcome.bind
  · intro cause why
    obtain ⟨rfl, missing⟩ | ⟨venue, found, refused⟩ := why
    · exact .unknownMarket _ market rfl missing
    · exact .entry market client request venue cause found refused
  intro reply after worked
  obtain ⟨admission, event⟩ := reply
  obtain ⟨venue, desk, found, entry, filed⟩ := worked
  subst filed
  dsimp only at entry
  have named := sound.named market venue found
  have told : event = admission.event market request.id now := by
    cases entry <;> rw [← named] <;> rfl
  subst told
  have free : store.jobMarkets.get? request.id = none :=
    KeyMap.contains_eq_false.1 (Bool.eq_false_iff.2 unused)
  exact ⟨admission, _, rfl, venue, desk, found, free, entry, rfl⟩

/-- A new job enters its market and the index, or it is refused and nothing changes. -/
theorem createJob_outcome (client : Key) (request : JobRequest) :
    AllOrNothing (createJob market client request now) store
      (fun admission after =>
        Step now store (.entered (admission.event market request.id now)) after)
      (Operation.Refused now store (.createJob market client request)) := by
  apply (createJob_entry now sound client request).imp
  intro admission after entered
  obtain ⟨venue, desk, found, unused, entry, rfl⟩ := entered
  exact .entered market client request venue admission _ desk found unused entry

/-- A node is listed in the market that it names, with enough stake. -/
theorem listNode_listing (node : Key) (stake : Stake) :
    AllOrNothing (listNode market node stake now) store
      (fun admission after => ∃ venue desk, store.venues.get? market = some venue ∧
        venue.market.params.minimumStake.units ≤ stake.units ∧
        Desk.Step store.config now ⟨venue, store.balances⟩
          (Desk.listing market node now admission) desk ∧
        after = { store.file market desk with
          events := store.events ++ [Desk.listing market node now admission] })
      (Operation.Refused now store (.listNode market node stake)) := by
  unfold listNode
  apply AllOrNothing.of_get
  have outcome := onMarket_outcome fun venue found =>
    Desk.listNode_outcome ⟨venue, store.balances⟩ (sound.ledgers market venue found) node
      stake store.config now
  apply outcome.bind
  · intro cause why
    obtain ⟨rfl, missing⟩ | ⟨venue, found, refused⟩ := why
    · exact .unknownMarket _ market rfl missing
    · exact .listing market node stake venue cause found refused
  intro reply after worked
  obtain ⟨admission, event⟩ := reply
  obtain ⟨venue, desk, found, ⟨step, told, staked⟩, filed⟩ := worked
  dsimp only at step told
  rw [sound.named market venue found] at told
  subst filed told
  exact ⟨admission, _, rfl, venue, desk, found, staked, step, rfl⟩

/-- A node is listed in its market, or it is refused and nothing changes. -/
theorem listNode_outcome (node : Key) (stake : Stake) :
    AllOrNothing (listNode market node stake now) store
      (fun admission after =>
        Step now store (.told (Desk.listing market node now admission)) after)
      (Operation.Refused now store (.listNode market node stake)) := by
  apply (listNode_listing now sound node stake).imp
  intro admission after listed
  obtain ⟨venue, desk, found, -, step, rfl⟩ := listed
  have traded := Step.traded market venue _ desk found step
  rw [rateEvent_listing] at traded
  exact traded

/-- A node leaves its market, or it is refused and nothing changes. -/
theorem delistNode_outcome (node : Key) :
    AllOrNothing (delistNode market node now) store
      (fun _ after => Step now store (.told (.nodeDelisted market node now)) after)
      (Operation.Refused now store (.delistNode market node)) := by
  unfold delistNode
  have outcome := onMarket_outcome fun venue found =>
    Desk.delistNode_outcome ⟨venue, store.balances⟩ (sound.ledgers market venue found) node
      store.config now
  apply outcome.bind
  · intro cause why
    obtain ⟨rfl, missing⟩ | ⟨venue, found, refused⟩ := why
    · exact .unknownMarket _ market rfl missing
    · exact .delisting market node venue cause found refused
  intro event after worked
  obtain ⟨venue, desk, found, ⟨step, told⟩, filed⟩ := worked
  subst filed
  have traded := Step.traded market venue event desk found step
  rw [told, sound.named market venue found] at traded
  rw [told, sound.named market venue found]
  exact ⟨(), _, rfl, traded⟩

/-- A job is completed in its market and its node is rated, or the result is refused and nothing
changes. -/
theorem finishJob_outcome (node : Key) (result : Digest) :
    AllOrNothing (finishJob job node result now) store
      (fun finished after => finished.id = job ∧
        Step now store (.told (.jobCompleted finished.market job node result finished.price now))
          after)
      (Operation.Refused now store (.finishJob job node result)) := by
  unfold finishJob
  apply (marketOfJob_outcome job).bind_same
  · rintro cause ⟨rfl, missing⟩
    exact .unknownJob _ job rfl missing
  intro market indexed
  apply AllOrNothing.of_get
  have outcome := onMarket_outcome fun venue found =>
    Desk.finishJob_outcome ⟨venue, store.balances⟩ (sound.ledgers market venue found) job
      node result store.config now
  apply outcome.bind
  · intro cause why
    obtain ⟨-, missing⟩ | ⟨venue, found, refused⟩ := why
    · exact absurd missing (sound.get?_ne_none indexed)
    · exact .finish job node result market venue cause indexed found refused
  intro reply after worked
  obtain ⟨venue, desk, found, ⟨step, recorded, same, told⟩, filed⟩ := worked
  subst filed
  have traded := Step.traded market venue reply.2 desk found step
  have rated : store.config.rateEvent now desk.venue.jobs reply.2 store.reputations =
      store.config.rate node (fun reputation => reputation.afterCompletion
        reply.1.executionSeconds reply.1.price now) store.reputations := by
    rw [told, Config.rateEvent, recorded]
    rfl
  rw [rated] at traded
  simp only [EStateM.run_bind, updateReputation_run]
  refine ⟨reply.1, _, rfl, same, ?_⟩
  rw [told] at traded ⊢
  exact traded

/-- A job is stopped in its market, or the cancellation is refused and nothing changes. -/
theorem cancelJob_outcome (client : Key) :
    AllOrNothing (cancelJob job client now) store
      (fun stopped after => stopped.id = job ∧
        Step now store (.told (.jobStopped stopped.market job client stopped.price now)) after)
      (Operation.Refused now store (.cancelJob job client)) := by
  unfold cancelJob
  apply (marketOfJob_outcome job).bind_same
  · rintro cause ⟨rfl, missing⟩
    exact .unknownJob _ job rfl missing
  intro market indexed
  have outcome := onMarket_outcome fun venue found =>
    Desk.cancelJob_outcome ⟨venue, store.balances⟩ (sound.ledgers market venue found) job
      client store.config now
  apply outcome.bind
  · intro cause why
    obtain ⟨-, missing⟩ | ⟨venue, found, refused⟩ := why
    · exact absurd missing (sound.get?_ne_none indexed)
    · exact .cancel job client market venue cause indexed found refused
  intro reply after worked
  obtain ⟨venue, desk, found, ⟨step, recorded, same, told⟩, filed⟩ := worked
  subst filed
  have traded := Step.traded market venue reply.2 desk found step
  refine ⟨reply.1, _, rfl, same, ?_⟩
  rw [told] at traded ⊢
  exact traded

/-- A job is timed out in its market and its node is rated, or the timeout is refused and nothing
changes. -/
theorem timeoutJob_outcome :
    AllOrNothing (timeoutJob job now) store
      (fun ended after => ended.id = job ∧
        Step now store (.told (ended.timeoutEvent now)) after)
      (Operation.Refused now store (.timeoutJob job)) := by
  unfold timeoutJob
  apply (marketOfJob_outcome job).bind_same
  · rintro cause ⟨rfl, missing⟩
    exact .unknownJob _ job rfl missing
  intro market indexed
  apply AllOrNothing.of_get
  have outcome := onMarket_outcome fun venue found =>
    Desk.timeoutJob_outcome ⟨venue, store.balances⟩ (sound.ledgers market venue found) job
      store.config now
  apply outcome.bind
  · intro cause why
    obtain ⟨-, missing⟩ | ⟨venue, found, refused⟩ := why
    · exact absurd missing (sound.get?_ne_none indexed)
    · exact .timeout job market venue cause indexed found refused
  intro reply after worked
  obtain ⟨venue, desk, found, ⟨step, recorded, same, told⟩, filed⟩ := worked
  subst filed
  have traded := Step.traded market venue reply.2 desk found step
  simp only [EStateM.run_bind, noteTimeout_run]
  refine ⟨reply.1, _, rfl, same, ?_⟩
  rw [← same] at told
  rw [told] at traded ⊢
  exact traded

/-- A sweep times jobs out one after the other. It is refused in a market that is not there only. -/
theorem sweep_outcome :
    AllOrNothing (sweep market now) store
      (fun ids after => ∃ ended : List Job, ids = ended.map Job.id ∧
        Steps now store (ended.map fun job => .told (job.timeoutEvent now)) after)
      (Operation.Refused now store (.sweep market)) := by
  unfold sweep
  apply AllOrNothing.of_get
  have swept : ∀ venue, store.venues.get? market = some venue →
      AllOrNothing (Desk.sweep store.config.expiry now) ⟨venue, store.balances⟩
        (Desk.Timeouts store.config now ⟨venue, store.balances⟩
          (venue.overdueJobs now store.config.expiry))
        fun _ => False := by
    intro venue found
    obtain ⟨ended, after, ran, timeouts⟩ := Desk.sweep_outcome ⟨venue, store.balances⟩
      (sound.ledgers market venue found) store.config now
    exact .of_run ran timeouts
  apply (onMarket_outcome swept).bind
  · intro cause why
    obtain ⟨rfl, missing⟩ | ⟨venue, found, never⟩ := why
    · exact .unknownMarket _ market rfl missing
    · exact never.elim
  intro ended after worked
  obtain ⟨venue, desk, found, timeouts, filed⟩ := worked
  subst filed
  simp only [EStateM.run_bind, noteTimeouts_run]
  refine ⟨_, _, rfl, ended.map Prod.fst, ?_, ?_⟩
  · rw [List.map_map]
    rfl
  · rw [List.map_map]
    exact steps_of_timeouts timeouts rfl found rfl

/-- Every operation does all that it is said to do, or nothing. -/
theorem perform_outcome (operation : Operation) :
    AllOrNothing (operation.perform now) store
      (fun reply after =>
        ∃ changes, operation.Does now reply changes ∧ Steps now store changes after)
      (operation.Refused now store) := by
  cases operation with
  | createMarket authority params =>
      refine (createMarket_outcome now authority params).map (fun _ refused => refused) ?_
      intro id after step
      exact ⟨_, .opened authority id params, .one step⟩
  | createJob market client request =>
      refine (createJob_outcome now sound client request).map (fun _ refused => refused) ?_
      intro admission after step
      exact ⟨_, .admitted market client request admission, .one step⟩
  | listNode market node stake =>
      refine (listNode_outcome now sound node stake).map (fun _ refused => refused) ?_
      intro admission after step
      exact ⟨_, .listed market node stake admission, .one step⟩
  | delistNode market node =>
      refine (delistNode_outcome now sound node).map (fun _ refused => refused) ?_
      intro done after step
      exact ⟨_, .delisted market node, .one step⟩
  | finishJob job node result =>
      refine (finishJob_outcome now sound node result).map (fun _ refused => refused) ?_
      intro finished after settled
      obtain ⟨same, step⟩ := settled
      subst same
      exact ⟨_, .finished node result finished, .one step⟩
  | cancelJob job client =>
      refine (cancelJob_outcome now sound client).map (fun _ refused => refused) ?_
      intro stopped after settled
      obtain ⟨same, step⟩ := settled
      subst same
      exact ⟨_, .cancelled client stopped, .one step⟩
  | timeoutJob job =>
      refine (timeoutJob_outcome now sound).map (fun _ refused => refused) ?_
      intro ended after settled
      obtain ⟨same, step⟩ := settled
      subst same
      exact ⟨_, .timedOut ended, .one step⟩
  | sweep market =>
      refine (sweep_outcome now sound).map (fun _ refused => refused) ?_
      intro ids after swept
      obtain ⟨ended, same, steps⟩ := swept
      subst same
      exact ⟨_, .swept market ended, steps⟩
  | deposit account amount =>
      refine (deposit_outcome now account amount).map (fun _ refused => refused) ?_
      intro total after step
      exact ⟨_, .paid account amount total, .one step⟩

/-- What an operation that succeeds has done. -/
theorem steps_of_apply {operation : Operation} {reply : Reply}
    (succeeded : (store.apply now operation).1 = .ok reply) :
    ∃ changes, operation.Does now reply changes ∧
      Steps now store changes (store.apply now operation).2 :=
  apply_of_ok (perform_outcome now sound operation) succeeded

/-- An operation that fails has a reason and has done nothing. -/
theorem apply_of_error {operation : Operation} {cause : MarketError}
    (failed : (store.apply now operation).1 = .error cause) :
    operation.Refused now store cause ∧ (store.apply now operation).2 = store := by
  have outcome := perform_outcome now sound operation
  unfold apply at failed ⊢
  unfold AllOrNothing EStateM.run at outcome
  cases ran : operation.perform now store with
  | ok answer after =>
      rw [ran] at failed
      cases failed
  | error cause after =>
      rw [ran] at outcome failed
      cases failed
      exact outcome

/-- An operation succeeds that nothing refuses. -/
theorem Sound.accepts_of_unrefused {operation : Operation}
    (unrefused : ∀ cause, ¬ operation.Refused now store cause) : store.Accepts now operation := by
  cases answer : (store.apply now operation).1 with
  | ok reply => exact ⟨reply, answer⟩
  | error cause => exact absurd (apply_of_error now sound answer).1 (unrefused cause)

/-- An operation keeps a store sound, whether it succeeds or not. -/
theorem Sound.apply (operation : Operation) : (store.apply now operation).2.Sound := by
  cases answer : (store.apply now operation).1 with
  | ok reply =>
      obtain ⟨changes, does, steps⟩ := steps_of_apply now sound answer
      exact steps.sound sound
  | error cause =>
      rw [(apply_of_error now sound answer).2]
      exact sound

end Operations

end Store

end ComputeMarket
