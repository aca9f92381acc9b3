import ComputeMarket.Proofs.Indifference
import ComputeMarket.Proofs.Lifecycle

/-
This file proves that a transition of a market notices no balances but those of the accounts that
it moves money of, and leaves all others alone.
-/

namespace ComputeMarket

namespace BalanceBook

variable {accounts : List Key} {outer : BalanceBook} {account : Key}

/-- The balances of some accounts from one book and of all others from another. -/
def amid (book : BalanceBook) (accounts : List Key) (outer : BalanceBook) : BalanceBook :=
  ⟨.splice (· ∈ accounts) book.accounts outer.accounts⟩

/-- The accounts inside keep their balances. -/
theorem balance_amid (inside : account ∈ accounts) (book : BalanceBook) :
    (book.amid accounts outer).balance account = book.balance account := by
  rw [balance, amid, KeyMap.get?_splice, if_pos inside]
  rfl

/-- The check of a payment sees the accounts inside only. -/
theorem allowDebit_amid (inside : account ∈ accounts) (book : BalanceBook) (amount : Amount) :
    (book.amid accounts outer).allowDebit account amount = book.allowDebit account amount := by
  rw [allowDebit, balance_amid inside]
  rfl

/-- The check of a credit sees the accounts inside only. -/
theorem allowCredit_amid (inside : account ∈ accounts) (book : BalanceBook) (amount : Amount) :
    (book.amid accounts outer).allowCredit account amount = book.allowCredit account amount := by
  rw [allowCredit, balance_amid inside]
  rfl

/-- A new balance of an account inside may be put there before or after the outer ones are swapped.
-/
theorem insert_amid (inside : account ∈ accounts) (book : BalanceBook) (amount : Amount) :
    BalanceBook.mk ((book.amid accounts outer).accounts.insert account amount) =
      BalanceBook.amid ⟨book.accounts.insert account amount⟩ accounts outer :=
  congrArg BalanceBook.mk (KeyMap.insert_splice _ inside book.accounts outer.accounts amount)

/-- A credit of an account inside gives the same answer, whatever the accounts outside hold. -/
theorem credit_amid (inside : account ∈ accounts) (book : BalanceBook) (amount : Amount) :
    (book.amid accounts outer).credit account amount =
      (book.credit account amount).map fun answer => (answer.1, answer.2.amid accounts outer) := by
  rw [credit, credit, balance_amid inside]
  cases (book.balance account).add? amount with
  | none => rfl
  | some total =>
      dsimp only
      rw [insert_amid inside]
      rfl

/-- A payment from an account inside gives the same answer, whatever the accounts outside hold. -/
theorem debit_amid (inside : account ∈ accounts) (book : BalanceBook) (amount : Amount) :
    (book.amid accounts outer).debit account amount =
      (book.debit account amount).map fun answer => (answer.1, answer.2.amid accounts outer) := by
  rw [debit, debit, allowDebit_amid inside, balance_amid inside]
  cases book.allowDebit account amount with
  | error cause => rfl
  | ok done =>
      dsimp only [bind, Except.bind]
      rw [insert_amid inside]
      rfl

end BalanceBook

namespace Desk

/-- The desk with all balances from elsewhere but those of some accounts. -/
def amid (accounts : List Key) (outer : BalanceBook) (desk : Desk) : Desk :=
  { desk with balances := desk.balances.amid accounts outer }

section Blocks

variable {accounts : List Key} {outer : BalanceBook} {desk : Desk} {account id : Key}
  {amount : Amount}

/-- A queue is replaced without a look at any balance. -/
theorem ignores_setQueue (queue : Queue) :
    Ignores (amid accounts outer) (setQueue queue) desk := .modify rfl

/-- A record is filed without a look at any balance. -/
theorem ignores_record (job : Job) : Ignores (amid accounts outer) (record job) desk := .modify rfl

theorem ignores_countJob : Ignores (amid accounts outer) countJob desk := .modify rfl

theorem ignores_countListing : Ignores (amid accounts outer) countListing desk := .modify rfl

/-- A payment into the vault touches no account. -/
theorem ignores_deposit (amount : Amount) :
    Ignores (amid accounts outer) (deposit amount) desk := by
  refine .get rfl ?_
  apply Ignores.bind (.accept _)
  intro vault after _
  exact .modify rfl

/-- A payment out of the vault touches no account. -/
theorem ignores_withdraw (amount : Amount) :
    Ignores (amid accounts outer) (withdraw amount) desk := by
  refine .get rfl ?_
  apply Ignores.bind (.accept _)
  intro vault after _
  exact .modify rfl

/-- A credit notices no balance outside, as long as its account is inside. -/
theorem ignores_credit (inside : account ∈ accounts) (amount : Amount) :
    Ignores (amid accounts outer) (credit account amount) desk := by
  unfold Ignores credit
  simp only [EStateM.run_bind, EStateM.run_get, amid, BalanceBook.credit_amid inside]
  cases desk.balances.credit account amount <;> rfl

/-- A payment notices no balance outside, as long as its account is inside. -/
theorem ignores_debit (inside : account ∈ accounts) (amount : Amount) :
    Ignores (amid accounts outer) (debit account amount) desk := by
  unfold Ignores debit
  simp only [EStateM.run_bind, EStateM.run_get, amid, BalanceBook.debit_amid inside]
  cases desk.balances.debit account amount <;> rfl

/-- A record is looked up without a look at any balance. -/
theorem ignores_job (id : Key) : Ignores (amid accounts outer) (job id) desk := by
  refine .get rfl ?_
  cases desk.venue.jobs.get? id with
  | none => exact .throw _
  | some job => exact .pure job

/-- An arrival is handed to the queue without a look at any balance. -/
theorem ignores_submit (side : Side) (id : Key) (capacity : Count) :
    Ignores (amid accounts outer) (submit side id capacity) desk := by
  refine .get rfl ?_
  apply Ignores.bind (.accept _)
  intro answer after _
  apply Ignores.bind (ignores_setQueue answer.2)
  intro _ after _
  exact .pure answer.1

/-- The head of the queue is checked without a look at any balance. -/
theorem ignores_checkHead : Ignores (amid accounts outer) checkHead desk := by
  refine .get rfl ?_
  dsimp only
  split
  · exact .throw _
  · split
    · exact .throw _
    · apply Ignores.bind (.accept _)
      intro _ after _
      split
      · exact .throw _
      · exact .pure ()
  · exact .pure ()
  · exact .pure ()

end Blocks

section Transitions

variable {accounts : List Key} {outer : BalanceBook} (desk : Desk)

/-- The creation of a job notices no balance but the one of its client. -/
theorem ignores_createJob {client : Key} (inside : client ∈ accounts) (request : JobRequest)
    (capacity : Count) (now : Int64) :
    Ignores (amid accounts outer) (createJob client request capacity now) desk := by
  refine .get ?_ ?_
  · dsimp only [amid]
    rw [BalanceBook.allowDebit_amid inside]
  apply Ignores.refuse
  intro _
  apply Ignores.refuse
  intro _
  apply Ignores.bind (.accept _)
  intro _ after _
  apply Ignores.bind (.accept _)
  intro _ after _
  apply Ignores.bind (ignores_submit .job request.id capacity)
  intro admission after _
  apply Ignores.bind (ignores_debit inside _)
  intro _ after _
  apply Ignores.bind (ignores_deposit _)
  intro _ after _
  cases admission with
  | matched node =>
      apply Ignores.bind (.accept _)
      intro started after _
      apply Ignores.bind (ignores_record started)
      intro _ after _
      apply Ignores.bind ignores_countJob
      intro _ after _
      exact .pure _
  | queued place =>
      apply Ignores.bind (ignores_record _)
      intro _ after _
      apply Ignores.bind ignores_countJob
      intro _ after _
      exact .pure _

/-- The listing of a node notices no balance at all, even where it is matched at once. -/
theorem ignores_listNode (node : Key) (stake : Stake) (capacity : Count) (now : Int64) :
    Ignores (amid accounts outer) (listNode node stake capacity now) desk := by
  refine .get rfl ?_
  apply Ignores.refuse
  intro _
  apply Ignores.bind ignores_checkHead
  intro _ after _
  apply Ignores.bind (ignores_submit .node node capacity)
  intro admission after _
  cases admission with
  | matched head =>
      apply Ignores.bind (ignores_job head)
      intro waiting after _
      apply Ignores.bind (.accept _)
      intro started after _
      apply Ignores.bind (ignores_record started)
      intro _ after _
      apply Ignores.bind ignores_countListing
      intro _ after _
      exact .pure _
  | queued place =>
      apply Ignores.bind ignores_countListing
      intro _ after _
      exact .pure _

/-- The withdrawal of a node notices no balance at all. -/
theorem ignores_delistNode (node : Key) (now : Int64) :
    Ignores (amid accounts outer) (delistNode node now) desk := by
  refine .get rfl ?_
  apply Ignores.bind (ignores_setQueue _)
  intro _ after _
  apply Ignores.demand
  intro _
  exact .pure _

/-- A result notices no balance but the one of the node that hands it in. -/
theorem ignores_finishJob (id : Key) {node : Key} (inside : node ∈ accounts) (result : Digest)
    (config : Config) (now : Int64) :
    Ignores (amid accounts outer) (finishJob id node result config now) desk := by
  apply Ignores.bind (ignores_job id)
  intro running after _
  apply Ignores.demand
  intro _
  apply Ignores.bind (.accept _)
  intro _ after _
  apply Ignores.refuse
  intro _
  apply Ignores.refuse
  intro _
  refine .get ?_ ?_
  · dsimp only [amid]
    rw [BalanceBook.allowCredit_amid inside]
  apply Ignores.bind (.accept _)
  intro _ after _
  apply Ignores.bind (ignores_withdraw _)
  intro _ after _
  apply Ignores.bind (.accept _)
  intro finished after _
  apply Ignores.bind (ignores_record finished)
  intro _ after _
  apply Ignores.bind (ignores_credit inside _)
  intro _ after _
  exact .pure _

/-- A cancellation notices no balance but the one of the client that asks for it. -/
theorem ignores_cancelJob (id : Key) {client : Key} (inside : client ∈ accounts) (now : Int64) :
    Ignores (amid accounts outer) (cancelJob id client now) desk := by
  apply Ignores.bind (ignores_job id)
  intro waiting after _
  apply Ignores.demand
  intro _
  apply Ignores.bind (.accept _)
  intro _ after _
  refine .get rfl ?_
  apply Ignores.demand
  intro _
  refine .get ?_ ?_
  · dsimp only [amid]
    rw [BalanceBook.allowCredit_amid inside]
  apply Ignores.bind (.accept _)
  intro _ after _
  apply Ignores.bind (ignores_withdraw _)
  intro _ after _
  apply Ignores.bind (ignores_setQueue _)
  intro _ after _
  apply Ignores.bind (.accept _)
  intro stopped after _
  apply Ignores.bind (ignores_record stopped)
  intro _ after _
  apply Ignores.bind (ignores_credit inside _)
  intro _ after _
  exact .pure _

/-- A timeout notices no balance but the one of the client of the job. -/
theorem ignores_timeoutJob (id : Key) (expiry : Expiry) (now : Int64)
    (inside : ∀ late, desk.venue.jobs.get? id = some late → late.client ∈ accounts) :
    Ignores (amid accounts outer) (timeoutJob id expiry now) desk := by
  apply Ignores.bind (ignores_job id)
  intro late after found
  have paid := inside late ((job_outcome desk id).of_ok found).2
  apply Ignores.bind (.accept _)
  intro _ after _
  cases late.deadline expiry with
  | none => exact .throw _
  | some deadline =>
      apply Ignores.refuse
      intro _
      refine .get rfl ?_
      apply Ignores.refuse
      intro _
      refine .get ?_ ?_
      · dsimp only [amid]
        rw [BalanceBook.allowCredit_amid paid]
      apply Ignores.bind (.accept _)
      intro _ after _
      apply Ignores.bind (ignores_withdraw _)
      intro _ after _
      extract_lets ending
      have ends (done : PUnit) (desk : Desk) :
          Ignores (amid accounts outer) (ending done) desk := by
        apply Ignores.bind (.accept _)
        intro ended after _
        apply Ignores.bind (ignores_record ended)
        intro _ after _
        apply Ignores.bind (ignores_credit paid _)
        intro _ after _
        exact .pure _
      split
      · apply Ignores.bind (ignores_setQueue _)
        intro done after _
        exact ends done after
      · exact ends ⟨⟩ after

variable {desk}

/-- Timeouts one after the other notice no balances but those of the clients of their jobs. No
timeout changes a client, so that the later jobs are covered as well. -/
theorem ignores_timeoutJobs (sound : desk.venue.Sound) (config : Config) (now : Int64)
    {ids : List Key} (inside : ∀ id ∈ ids,
      ∃ late, desk.venue.jobs.get? id = some late ∧ late.client ∈ accounts) :
    Ignores (amid accounts outer) (timeoutJobs config.expiry now ids) desk := by
  induction ids generalizing desk with
  | nil => exact .pure []
  | cons id rest inductionHypothesis =>
      rw [List.forall_mem_cons] at inside
      obtain ⟨⟨late, recorded, paid⟩, others⟩ := inside
      have first : Ignores (amid accounts outer) (timeoutJob id config.expiry now) desk := by
        apply ignores_timeoutJob
        intro other found
        rw [recorded, Option.some.injEq] at found
        rwa [← found]
      apply Ignores.bind (.attempt first)
      intro answer after ran
      -- the attempt leaves a sound ledger, in which every job has the client that it had
      have kept : after.venue.Sound ∧ ∀ id ∈ rest,
          ∃ late, after.venue.jobs.get? id = some late ∧ late.client ∈ accounts := by
        have outcome := timeoutJob_outcome desk sound id config now
        rw [Action.attempt_run] at ran
        cases timedOut : (timeoutJob id config.expiry now).run desk with
        | error cause left =>
            rw [timedOut] at ran
            cases ran
            obtain ⟨-, rfl⟩ := outcome.of_error timedOut
            exact ⟨sound, others⟩
        | ok reply left =>
            rw [timedOut] at ran
            cases ran
            have step := (outcome.of_ok timedOut).1
            refine ⟨step.sound sound, ?_⟩
            intro other member
            obtain ⟨job, known, owned⟩ := others other member
            obtain ⟨next, kept, turn⟩ := step.turn sound known
            exact ⟨next, kept, by rwa [turn.advances.client]⟩
      apply Ignores.bind (inductionHypothesis kept.1 kept.2)
      intro ended after _
      exact .pure _

/-- A sweep notices no balances but those of the clients with open jobs. -/
theorem ignores_sweep (sound : desk.venue.Sound) (config : Config) (now : Int64)
    (inside : ∀ id job, desk.venue.jobs.get? id = some job → job.isOpen = true →
      job.client ∈ accounts) :
    Ignores (amid accounts outer) (sweep config.expiry now) desk := by
  refine .get rfl ?_
  apply ignores_timeoutJobs sound
  intro id listed
  have filed := fun id job recorded => (sound.filed id job recorded).1
  obtain ⟨job, recorded, unsettled, -⟩ := (Venue.mem_overdueJobs filed).1 listed
  exact ⟨job, recorded, inside id job recorded unsettled⟩

end Transitions

end Desk

end ComputeMarket
