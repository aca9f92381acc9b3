import ComputeMarket.Proofs.Action
import ComputeMarket.Proofs.Audit
import ComputeMarket.Proofs.Step

/-
This file proves that a transition on a sound ledger either refuses and changes nothing, or makes
one of the steps that are listed for the ledger of a market.
-/

namespace ComputeMarket.Desk

section Blocks

variable (desk : Desk) {account : Key} {amount left total : Amount}

theorem setQueue_run (queue : Queue) : (setQueue queue).run desk = .ok () (desk.withQueue queue) :=
  rfl

theorem record_run (job : Job) :
    (record job).run desk =
      .ok () { desk with venue := { desk.venue with jobs := desk.venue.jobs.insert job.id job } } :=
  rfl

/-- A record is looked up and nothing changes. -/
theorem job_run (id : Key) :
    (job id).run desk =
      match desk.venue.jobs.get? id with
      | some job => .ok job desk
      | none => .error (.jobNotFound id) desk := by
  simp only [job, EStateM.run_bind, EStateM.run_get]
  cases desk.venue.jobs.get? id <;> rfl

variable {venue : Venue} {balances next : BalanceBook}

theorem credit_run (credited : balances.credit account amount = .ok (total, next)) :
    (credit account amount).run ⟨venue, balances⟩ = .ok () ⟨venue, next⟩ := by
  simp only [credit, EStateM.run_bind, EStateM.run_get, credited, Action.accept_ok_run,
    EStateM.run_modify]

theorem debit_run (debited : balances.debit account amount = .ok (left, next)) :
    (debit account amount).run ⟨venue, balances⟩ = .ok () ⟨venue, next⟩ := by
  simp only [debit, EStateM.run_bind, EStateM.run_get, debited, Action.accept_ok_run,
    EStateM.run_modify]

variable {market : Market} {vault nextVault : Vault} {jobs : KeyMap Job}

theorem deposit_run (deposited : vault.deposit amount = .ok nextVault) :
    (deposit amount).run ⟨⟨market, vault, jobs⟩, balances⟩ =
      .ok () ⟨⟨market, nextVault, jobs⟩, balances⟩ := by
  simp only [deposit, EStateM.run_bind, EStateM.run_get, deposited, Action.accept_ok_run,
    EStateM.run_modify]

/-- A withdrawal that the vault accepts replaces the vault. -/
theorem withdraw_run (withdrawn : vault.withdraw amount = .ok nextVault) :
    (withdraw amount).run ⟨⟨market, vault, jobs⟩, balances⟩ =
      .ok () ⟨⟨market, nextVault, jobs⟩, balances⟩ := by
  simp only [withdraw, EStateM.run_bind, EStateM.run_get, withdrawn, Action.accept_ok_run,
    EStateM.run_modify]

/-- A submission that the queue accepts replaces the queue, and one that it refuses changes nothing.
-/
theorem submit_run (side : Side) (id : Key) (capacity : Count) :
    (submit side id capacity).run desk =
      match desk.venue.market.queue.submit side id capacity with
      | .ok (admission, queue) => .ok admission (desk.withQueue queue)
      | .error cause => .error cause desk := by
  simp only [submit, EStateM.run_bind, EStateM.run_get]
  cases desk.venue.market.queue.submit side id capacity <;> rfl

end Blocks

section Facts

variable {desk : Desk} (sound : desk.venue.Sound)

include sound

/-- The vault of a sound ledger covers the price of every open job. -/
theorem price_le_vault {id : Key} {job : Job} (recorded : desk.venue.jobs.get? id = some job)
    (unsettled : job.isOpen = true) : job.price.base ≤ desk.venue.vault.balance.base := by
  have part := KeyMap.le_total Job.held recorded
  rw [sound.escrowed, Job.held, if_pos unsettled] at part
  exact part

/-- A queued job of a sound ledger has no node. -/
theorem node_eq_none {id : Key} {job : Job} (found : desk.venue.jobs.get? id = some job)
    (queued : job.state = .queued) : job.node = none :=
  (Venue.nodeAgrees_iff.1 (sound.bound id job found)).1 (.inl queued)

/-- A queued job of a sound ledger waits in the queue. -/
theorem contains_of_queued {id : Key} {job : Job} (found : desk.venue.jobs.get? id = some job)
    (queued : job.state = .queued) : desk.venue.market.queue.contains .job id = true :=
  Queue.contains_iff.2 ((sound.waiting id).2 ⟨job, found, queued⟩)

/-- Once the payee may be credited, the price of an open job can leave the vault for the payee. -/
theorem payment {id payee : Key} {job : Job} {done : Unit}
    (recorded : desk.venue.jobs.get? id = some job) (unsettled : job.isOpen = true)
    (allowed : desk.balances.allowCredit payee job.price = .ok done) :
    ∃ rest total : Amount,
      rest.base + job.price.base = desk.venue.vault.balance.base ∧
      total.base = (desk.balances.balance payee).base + job.price.base ∧
      desk.venue.vault.withdraw job.price = .ok { desk.venue.vault with balance := rest } ∧
      desk.balances.credit payee job.price =
        .ok (total, ⟨desk.balances.accounts.insert payee total⟩) := by
  obtain ⟨total, credited, paid⟩ := BalanceBook.credit_of_allowCredit allowed
  obtain ⟨rest, released, withdrawn⟩ :=
    Vault.withdraw_of_le (price_le_vault sound recorded unsettled)
  exact ⟨rest, total, released, credited, withdrawn, paid⟩

/-- The job at the head of a sound queue can take a node. -/
theorem checkHead_run : checkHead.run desk = .ok () desk := by
  unfold checkHead
  simp only [EStateM.run_bind, EStateM.run_get]
  cases waits : desk.venue.market.queue with
  | empty => rfl
  | nodes waiting => rfl
  | jobs waiting =>
      cases waiting with
      | nil =>
          have formed := sound.formed
          rw [waits] at formed
          exact absurd formed Bool.false_ne_true
      | cons head rest =>
          have member : head ∈ desk.venue.waitingJobs := by
            rw [Venue.waitingJobs, waits]
            exact List.mem_cons_self
          obtain ⟨job, found, queued⟩ := (sound.waiting head).1 member
          have free : job.node.isSome = false := by rw [node_eq_none sound found queued]; rfl
          have allowed := Job.allow_of_canBecome (JobState.canBecome_running.2 queued)
          simp only [found, allowed, EStateM.run_bind, Action.accept_ok_run, free,
            Bool.false_eq_true, if_false, EStateM.run_pure]

end Facts

section Checks

variable {A : Type} {desk : Desk} {job : Job} {done : A → Desk → Prop}
  {refused : MarketError → Prop} {next : Unit → Transition A}

/-- Past the check of a change of state, a transition goes on with a job that may make it. -/
theorem of_allow {target : JobState}
    (stops : job.state.canBecome target = false →
      refused (.invalidTransition job.id job.state target))
    (all : job.state.canBecome target = true → AllOrNothing (next ()) desk done refused) :
    AllOrNothing (accept (job.allow target) >>= next) desk done refused := by
  apply AllOrNothing.of_accept
  · intro cause moved
    obtain ⟨rfl, impossible⟩ := Job.allow_eq_error moved
    exact stops impossible
  · intro _ allowed
    exact all (Job.canBecome_of_allow allowed)

/-- Past the check of a credit, a transition goes on with an open job whose price can be paid out.
The vault of a sound ledger holds this price, so that only the payee can lack the room for it. -/
theorem of_payment {id payee : Key} (sound : desk.venue.Sound)
    (recorded : desk.venue.jobs.get? id = some job) (unsettled : job.isOpen = true)
    (stops : 0x10000000000000000 ≤ (desk.balances.balance payee).base + job.price.base →
      refused (.overflow (.account payee)))
    (all : ∀ rest total : Amount, rest.base + job.price.base = desk.venue.vault.balance.base →
      total.base = (desk.balances.balance payee).base + job.price.base →
      desk.venue.vault.withdraw job.price = .ok { desk.venue.vault with balance := rest } →
      desk.balances.credit payee job.price =
        .ok (total, ⟨desk.balances.accounts.insert payee total⟩) →
      AllOrNothing (next ()) desk done refused) :
    AllOrNothing (get >>= fun now => accept (now.balances.allowCredit payee job.price) >>= next)
      desk done refused := by
  apply AllOrNothing.of_get
  apply AllOrNothing.of_accept
  · intro cause full
    obtain ⟨rfl, large⟩ := BalanceBook.allowCredit_eq_error full
    exact stops large
  · intro _ allowed
    obtain ⟨rest, total, released, credited, withdrawn, paid⟩ :=
      payment sound recorded unsettled allowed
    exact all rest total released credited withdrawn paid

/-- The last part of a timeout, once the price can be paid out: the job leaves the queue if it waits
there, and its client has the price back. -/
theorem timeOut_run {rest total : Amount} (now : Int64) (unsettled : job.isOpen = true)
    (withdrawn :
      desk.venue.vault.withdraw job.price = .ok { desk.venue.vault with balance := rest })
    (paid : desk.balances.credit job.client job.price =
      .ok (total, ⟨desk.balances.accounts.insert job.client total⟩)) :
    let late : Job := { job with state := .timedOut, ended := now }
    (do
      withdraw job.price
      if job.state = .queued then
        setQueue (desk.venue.market.queue.remove .job job.id)
      let ended ← accept (job.timeOut now)
      record ended
      credit job.client job.price
      return (ended, Event.jobTimedOut ended.market job.id job.client ended.node job.price now)
      : Transition (Job × Event)).run desk =
        .ok (late, late.timeoutEvent now) (desk.settle job late job.client rest total) := by
  by_cases queued : job.state = .queued
  · simp only [EStateM.run_bind, withdraw_run withdrawn, queued, if_true, setQueue_run, withQueue,
      Action.accept_ok_run, Job.timeOut_of_isOpen unsettled, record_run, credit_run paid,
      EStateM.run_pure, settle]
    rfl
  · simp only [EStateM.run_bind, withdraw_run withdrawn, queued, if_false, Action.accept_ok_run,
      Job.timeOut_of_isOpen unsettled, record_run, credit_run paid, EStateM.run_pure, settle]
    rfl

end Checks

section Outcomes

variable (desk : Desk)

/-- A record is found under its id, or its absence is the cause of the refusal. -/
theorem job_outcome (id : Key) :
    AllOrNothing (job id) desk
      (fun job after => after = desk ∧ desk.venue.jobs.get? id = some job)
      (fun cause => cause = .jobNotFound id ∧ desk.venue.jobs.get? id = none) := by
  unfold AllOrNothing
  rw [job_run]
  cases desk.venue.jobs.get? id with
  | none => exact ⟨⟨rfl, rfl⟩, rfl⟩
  | some job => exact ⟨rfl, rfl⟩

/-- A submission puts the queue after it in place, or fails as the queue does. -/
theorem submit_outcome (side : Side) (id : Key) (capacity : Count) :
    AllOrNothing (submit side id capacity) desk
      (fun admission after => ∃ queue, after = desk.withQueue queue ∧
        desk.venue.market.queue.submit side id capacity = .ok (admission, queue))
      (fun cause => desk.venue.market.queue.submit side id capacity = .error cause) := by
  unfold AllOrNothing
  rw [submit_run]
  cases desk.venue.market.queue.submit side id capacity with
  | error cause => exact ⟨rfl, rfl⟩
  | ok answer => exact ⟨answer.2, rfl, rfl⟩

variable (sound : desk.venue.Sound)

include sound

/-- A result settles the running job of its node and pays the node, or it is refused for a listed
cause and nothing has changed. -/
theorem finishJob_outcome (id node : Key) (result : Digest) (config : Config) (now : Int64) :
    AllOrNothing (finishJob id node result config now) desk
      (fun reply after =>
        Step config now desk reply.2 after ∧ after.venue.jobs.get? id = some reply.1 ∧
          reply.1.id = id ∧
          reply.2 = .jobCompleted reply.1.market id node result reply.1.price now)
      (FinishRefusal config now id node result desk) := by
  unfold finishJob
  apply (job_outcome desk id).bind_same
  · rintro cause ⟨rfl, missing⟩
    exact .unknown missing
  intro running found
  obtain ⟨rfl, -⟩ := sound.filed id running found
  refine .of_demand (fun unbound => .foreign running found unbound) ?_
  intro bound
  apply of_allow
  · intro impossible
    refine .moved running found fun isRunning => ?_
    exact absurd (JobState.canBecome_completed.2 isRunning) (Bool.eq_false_iff.1 impossible)
  intro allowed
  have isRunning := JobState.canBecome_completed.1 allowed
  have unsettled : running.isOpen = true := by rw [Job.isOpen, isRunning]; rfl
  refine .of_refuse (fun empty => .empty ((Digest.isZero_iff _).1 empty)) ?_
  intro filled
  apply AllOrNothing.of_refuse
  · intro late
    rw [Bool.and_eq_true, Job.isExpired_iff] at late
    obtain ⟨enforced, deadline, due, passed⟩ := late
    rw [due]
    exact .late running deadline found enforced due passed
  intro onTime
  apply of_payment sound found unsettled (.overflow running found)
  intro rest total released credited withdrawn paid
  have delivered : result ≠ .zero := fun same => filled ((Digest.isZero_iff _).2 same)
  have step : Step config now desk _ (desk.settle running _ node rest total) :=
    .settled running _ node _ rest total found
      (.completed node result isRunning bound delivered (Bool.eq_false_iff.2 onTime))
      released credited
  apply AllOrNothing.of_run
  · simp only [EStateM.run_bind, withdraw_run withdrawn, Action.accept_ok_run, record_run,
      Job.complete_of_running isRunning, credit_run paid, EStateM.run_pure]
    rfl
  · refine ⟨?_, KeyMap.get?_insert_self .., rfl, rfl⟩
    simpa only [settle, isRunning, reduceCtorEq, if_false] using step

/-- A cancellation settles the queued job of its client and pays the client back, or it is refused
for a listed cause and nothing has changed. -/
theorem cancelJob_outcome (id client : Key) (config : Config) (now : Int64) :
    AllOrNothing (cancelJob id client now) desk
      (fun reply after =>
        Step config now desk reply.2 after ∧ after.venue.jobs.get? id = some reply.1 ∧
          reply.1.id = id ∧
          reply.2 = .jobStopped reply.1.market id client reply.1.price now)
      (CancelRefusal id client desk) := by
  unfold cancelJob
  apply (job_outcome desk id).bind_same
  · rintro cause ⟨rfl, missing⟩
    exact .unknown missing
  intro waiting found
  obtain ⟨rfl, -⟩ := sound.filed id waiting found
  refine .of_demand (fun other => .foreign waiting found other) ?_
  rintro rfl
  apply of_allow
  · intro impossible
    refine .moved waiting found fun queued => ?_
    exact absurd (JobState.canBecome_stopped.2 queued) (Bool.eq_false_iff.1 impossible)
  intro allowed
  have queued := JobState.canBecome_stopped.1 allowed
  have unsettled : waiting.isOpen = true := by rw [Job.isOpen, queued]; rfl
  apply AllOrNothing.of_get
  refine .of_demand (fun missing => absurd (contains_of_queued sound found queued) missing) ?_
  intro _
  apply of_payment sound found unsettled (.overflow waiting found)
  intro rest total released credited withdrawn paid
  have step : Step config now desk _ (desk.settle waiting _ waiting.client rest total) :=
    .settled waiting _ waiting.client _ rest total found (.stopped queued) released credited
  apply AllOrNothing.of_run
  · simp only [EStateM.run_bind, withdraw_run withdrawn, setQueue_run, withQueue,
      Action.accept_ok_run, record_run, Job.stop_of_queued queued, credit_run paid, EStateM.run_pure]
    rfl
  · refine ⟨?_, KeyMap.get?_insert_self .., rfl, rfl⟩
    simpa only [settle, queued, if_true] using step

/-- A timeout settles an open job past its deadline and pays its client back, or it is refused for a
listed cause and nothing has changed. -/
theorem timeoutJob_outcome (id : Key) (config : Config) (now : Int64) :
    AllOrNothing (timeoutJob id config.expiry now) desk
      (fun reply after =>
        Step config now desk reply.2 after ∧ after.venue.jobs.get? id = some reply.1 ∧
          reply.1.id = id ∧ reply.2 =
          .jobTimedOut reply.1.market id reply.1.client reply.1.node reply.1.price now)
      (TimeoutRefusal config now id desk) := by
  unfold timeoutJob
  apply (job_outcome desk id).bind_same
  · rintro cause ⟨rfl, missing⟩
    exact .unknown missing
  intro late found
  obtain ⟨rfl, -⟩ := sound.filed id late found
  apply of_allow
  · intro impossible
    refine .moved late found (Job.deadline_eq_none ?_ config.expiry)
    rw [Job.isOpen, ← Bool.not_eq_true, ← JobState.canBecome_timedOut, impossible]
    exact Bool.false_ne_true
  intro allowed
  have unsettled : late.isOpen = true := JobState.canBecome_timedOut.1 allowed
  cases due : late.deadline config.expiry with
  | none => exact ⟨.moved late found due, rfl⟩
  | some deadline =>
      refine .of_refuse (fun pending => .early late deadline found due pending) ?_
      intro passed
      have expired : late.isExpired now config.expiry = true :=
        Job.isExpired_iff.2 ⟨deadline, due, by simpa using passed⟩
      apply AllOrNothing.of_get
      apply AllOrNothing.of_refuse
      · rintro ⟨queued, missing⟩
        exact absurd (contains_of_queued sound found queued) missing
      intro _
      apply of_payment sound found unsettled (.overflow late found expired)
      intro rest total released credited withdrawn paid
      have step : Step config now desk _ (desk.settle late _ late.client rest total) :=
        .settled late _ late.client _ rest total found (.timedOut unsettled expired)
          released credited
      exact .of_run (timeOut_run now unsettled withdrawn paid)
        ⟨step, KeyMap.get?_insert_self .., rfl, rfl⟩

/-- A node that waits leaves the queue. One that does not wait is refused, and then the queue that
was put back is the one that was there. -/
theorem delistNode_outcome (node : Key) (config : Config) (now : Int64) :
    AllOrNothing (delistNode node now) desk
      (fun event after =>
        Step config now desk event after ∧ event = .nodeDelisted desk.venue.market.id node now)
      (DelistingRefusal node desk) := by
  unfold delistNode AllOrNothing
  simp only [EStateM.run_bind, EStateM.run_get, Queue.extract_eq, setQueue_run]
  by_cases listed : desk.venue.market.queue.contains .node node = true
  · rw [if_pos listed]
    exact ⟨Step.nodeDelisted node listed, rfl⟩
  · rw [if_neg listed, Queue.remove_eq_self sound.formed (Bool.eq_false_iff.2 listed)]
    exact ⟨.unlisted fun waits => listed (Queue.contains_iff.2 waits), rfl⟩

/-- A node with enough stake waits in the queue or takes the job at its head, or it is refused for a
listed cause and nothing has changed. -/
theorem listNode_outcome (node : Key) (stake : Stake) (config : Config) (now : Int64) :
    AllOrNothing (listNode node stake config.capacity now) desk
      (fun reply after =>
        Step config now desk reply.2 after ∧
          reply.2 = listing desk.venue.market.id node now reply.1 ∧
          desk.venue.market.params.minimumStake.units ≤ stake.units)
      (ListingRefusal node stake config.capacity desk) := by
  unfold listNode
  apply AllOrNothing.of_get
  refine .of_refuse .poor ?_
  intro staked
  have checked : AllOrNothing checkHead desk (fun _ after => after = desk ∧ True) fun _ => False :=
    .of_run (checkHead_run sound) ⟨rfl, trivial⟩
  refine checked.bind_same (fun _ never => never.elim) ?_
  intro _ _
  -- the queue can still refuse the node; once it has changed, nothing after it can fail
  apply (submit_outcome desk .node node config.capacity).bind
  · intro cause refused
    obtain ⟨idle, repeated | crowded⟩ := Queue.refusal_of_submit sound.formed refused
    · obtain ⟨rfl, listed⟩ := repeated
      exact .waiting idle listed
    · obtain ⟨rfl, unlisted, full⟩ := crowded
      exact .queueFull idle unlisted full
  intro admission after worked
  obtain ⟨queue, rfl, submitted⟩ := worked
  cases admission with
  | queued place =>
      exact ⟨_, _, rfl, .nodeQueued node place queue submitted, rfl, Nat.not_lt.1 staked⟩
  | matched head =>
      have waits : head ∈ desk.venue.waitingJobs := by
        have listed := (Queue.entriesOf_of_submit_matched submitted).1
        change desk.venue.market.queue.entriesOf .job = _ at listed
        rw [Venue.waitingJobs, listed]
        exact List.mem_cons_self
      obtain ⟨job, found, queued⟩ := (sound.waiting head).1 waits
      obtain ⟨rfl, -⟩ := sound.filed head job found
      have free := node_eq_none sound found queued
      simp only [EStateM.run_bind, job_run, withQueue, found, Action.accept_ok_run,
        Job.start_of_queued queued free, record_run]
      exact ⟨_, _, rfl, .headMatched node job queue submitted found queued free, rfl,
        Nat.not_lt.1 staked⟩

/-- A new job enters the ledger with its price in the vault, or it is refused for a listed cause and
nothing has changed. All checks come before the queue is touched, so that no later part can fail. -/
theorem createJob_outcome (client : Key) (request : JobRequest) (capacity : Count) (now : Int64) :
    AllOrNothing (createJob client request capacity now) desk
      (fun reply after => Entry client request capacity now desk reply.1 reply.2 after)
      (EntryRefusal client request capacity desk) := by
  unfold createJob
  apply AllOrNothing.of_get
  refine .of_refuse (fun undefined => .undefined ((Digest.isZero_iff _).1 undefined)) ?_
  intro defined
  refine .of_refuse .known ?_
  intro unknown
  apply AllOrNothing.of_accept
  · intro cause refused
    obtain ⟨rfl, short⟩ := BalanceBook.allowDebit_eq_error refused
    exact .poor short
  intro done allowedDebit
  apply AllOrNothing.of_accept
  · intro cause refused
    obtain ⟨rfl, large⟩ := Vault.afterDeposit_eq_error refused
    exact .overflow large
  intro total allowedDeposit
  have fresh := KeyMap.contains_eq_false.1 (Bool.eq_false_iff.2 unknown)
  apply (submit_outcome desk .job request.id capacity).bind
  · intro cause refused
    obtain ⟨unserved, repeated | crowded⟩ := Queue.refusal_of_submit sound.formed refused
    · obtain ⟨job, found, -⟩ := (sound.waiting request.id).1 repeated.2
      rw [fresh] at found
      cases found
    · obtain ⟨rfl, -, full⟩ := crowded
      exact .queueFull unserved full
  intro admission after worked
  obtain ⟨queue, rfl, submitted⟩ := worked
  obtain ⟨rest, paid, debited⟩ := BalanceBook.debit_of_allowDebit allowedDebit
  obtain ⟨escrowed, deposited⟩ := Vault.deposit_of_afterDeposit allowedDeposit
  have admissible : desk.Admissible client request rest total :=
    { defined := fun same => defined ((Digest.isZero_iff _).2 same)
      fresh, paid, escrowed }
  simp only [EStateM.run_bind, withQueue, debit_run debited, deposit_run deposited]
  cases admission with
  | queued place => exact ⟨_, _, rfl, .queued place queue rest total admissible submitted⟩
  | matched node => exact ⟨_, _, rfl, .matched node queue rest total admissible submitted⟩

end Outcomes

end ComputeMarket.Desk
