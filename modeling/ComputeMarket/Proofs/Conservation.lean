import ComputeMarket.Proofs.Store.History

/-
This file proves the exact accounting of the market: what every account has, has spent and has
earned, and that no operation makes funds or loses them.
-/

namespace ComputeMarket

namespace Job

/-- What an account has paid for a job and not got back. -/
def spentBy (account : Key) (job : Job) : Nat :=
  if job.client = account ∧
      (job.state = .queued ∨ job.state = .running ∨ job.state = .completed) then
    job.price.base
  else 0

/-- What an account was paid for a job. -/
def earnedBy (account : Key) (job : Job) : Nat :=
  if job.node = some account ∧ job.state = .completed then job.price.base else 0

variable {config : Config} {now : Int64} {job ended : Job} {payee : Key} {event : Event}

/-- A settlement moves the price to the account that it pays, and to no other. -/
theorem Settlement.accounts (settlement : job.Settlement config now ended payee event)
    (account : Key) :
    (if payee = account then job.price.base else 0) + ended.spentBy account +
        job.earnedBy account =
      job.spentBy account + ended.earnedBy account := by
  unfold spentBy earnedBy
  cases settlement with
  | completed node result running bound => simp [running, bound, Nat.add_comm]
  | stopped queued => simp [queued]
  | timedOut unsettled =>
      obtain queued | running := JobState.isOpen_iff.1 unsettled
      · simp [queued]
      · simp [running]

end Job

namespace Desk

variable {config : Config} {now : Int64} {desk after : Desk} {event : Event}

/-- What every account has and has spent follows what it has earned, and the funds in the
balances and in the vault stay the same together. -/
structure Conserves (desk after : Desk) : Prop where
  account : ∀ account,
    (after.balances.balance account).base + after.venue.jobs.total (Job.spentBy account) +
        desk.venue.jobs.total (Job.earnedBy account) =
      (desk.balances.balance account).base + desk.venue.jobs.total (Job.spentBy account) +
        after.venue.jobs.total (Job.earnedBy account)
  funds : after.balances.funds + after.venue.vault.balance.base =
    desk.balances.funds + desk.venue.vault.balance.base

/-- Every step without a new job keeps the money of a ledger: a settlement moves the price from the
vault to the payee, and nothing else is moved. -/
theorem Step.conserves (step : Step config now desk event after) : desk.Conserves after := by
  cases step with
  | nodeQueued => exact ⟨fun account => rfl, rfl⟩
  | nodeDelisted => exact ⟨fun account => rfl, rfl⟩
  | headMatched node waiting queue submitted recorded queued free =>
      refine ⟨?_, rfl⟩
      intro account
      -- queued or running, the job is paid for and nobody has earned its price
      let started : Job := { waiting with node := some node, state := .running, started := now }
      have spent := KeyMap.total_insert_of_get? (Job.spentBy account) started recorded
      have earned := KeyMap.total_insert_of_get? (Job.earnedBy account) started recorded
      have sameSpent : started.spentBy account = waiting.spentBy account := by
        simp [started, Job.spentBy, queued]
      have sameEarned : started.earnedBy account = waiting.earnedBy account := by
        simp [started, Job.earnedBy, queued]
      change (desk.balances.balance account).base +
          (desk.venue.jobs.insert waiting.id started).total (Job.spentBy account) + _ =
        _ + (desk.venue.jobs.insert waiting.id started).total (Job.earnedBy account)
      omega
  | settled job ended payee event rest total recorded settlement released credited =>
      constructor
      · intro account
        have spent := KeyMap.total_insert_of_get? (Job.spentBy account) ended recorded
        have earned := KeyMap.total_insert_of_get? (Job.earnedBy account) ended recorded
        have moved := settlement.accounts account
        have balance : ((desk.settle job ended payee rest total).balances.balance account).base =
            (desk.balances.balance account).base +
              (if payee = account then job.price.base else 0) := by
          change ((BalanceBook.mk (desk.balances.accounts.insert payee total)).balance account).base = _
          rw [BalanceBook.balance_of_insert]
          by_cases same : payee = account
          · subst same
            rw [if_pos rfl, if_pos rfl, credited]
          · rw [if_neg same, if_neg same, Nat.add_zero]
        change _ + (desk.venue.jobs.insert job.id ended).total (Job.spentBy account) + _ =
          _ + (desk.venue.jobs.insert job.id ended).total (Job.earnedBy account)
        omega
      · have paid := desk.balances.funds_of_insert payee total
        change (BalanceBook.mk (desk.balances.accounts.insert payee total)).funds + rest.base = _
        omega

/-- The client of a new job has paid its price, and nobody has earned it. -/
theorem conserves_enter {client : Key} {job : Job} {queue : Queue} {rest total : Amount}
    (fresh : desk.venue.jobs.get? job.id = none) (owned : job.client = client)
    (waits : job.state = .queued ∨ job.state = .running)
    (paid : rest.base + job.price.base = (desk.balances.balance client).base)
    (escrowed : total.base = desk.venue.vault.balance.base + job.price.base) :
    desk.Conserves (desk.enter client job queue rest total) := by
  constructor
  · intro account
    have spent := KeyMap.total_insert_new (Job.spentBy account) job fresh
    have earned := KeyMap.total_insert_new (Job.earnedBy account) job fresh
    have nothing : job.earnedBy account = 0 := by
      obtain queued | running := waits
      · simp [Job.earnedBy, queued]
      · simp [Job.earnedBy, running]
    have whole : job.spentBy account = if client = account then job.price.base else 0 := by
      obtain queued | running := waits
      · simp [Job.spentBy, queued, owned]
      · simp [Job.spentBy, running, owned]
    have balance : ((desk.enter client job queue rest total).balances.balance account).base +
        (if client = account then job.price.base else 0) =
          (desk.balances.balance account).base := by
      change ((BalanceBook.mk (desk.balances.accounts.insert client rest)).balance account).base +
        _ = _
      rw [BalanceBook.balance_of_insert]
      by_cases same : client = account
      · subst same
        rw [if_pos rfl, if_pos rfl, paid]
      · rw [if_neg same, if_neg same, Nat.add_zero]
    change _ + (desk.venue.jobs.insert job.id job).total (Job.spentBy account) + _ =
      _ + (desk.venue.jobs.insert job.id job).total (Job.earnedBy account)
    omega
  · have moved := desk.balances.funds_of_insert client rest
    change (BalanceBook.mk (desk.balances.accounts.insert client rest)).funds + total.base = _
    omega

/-- A new job moves its price from the client into the vault. -/
theorem Entry.conserves {client : Key} {request : JobRequest} {capacity : Count}
    {admission : JobAdmission}
    (entry : Entry client request capacity now desk admission event after) :
    desk.Conserves after := by
  cases entry with
  | queued place queue rest total admissible =>
      exact conserves_enter admissible.fresh rfl (.inl rfl) admissible.paid admissible.escrowed
  | matched node queue rest total admissible =>
      exact conserves_enter admissible.fresh rfl (.inr rfl) admissible.paid admissible.escrowed

end Desk

/-- What accounts were paid from outside. -/
def paidIn (payments : List (Key × Amount)) : Nat :=
  (payments.map fun payment => payment.2.base).sum

/-- What one account was paid from outside. -/
def paidInto (account : Key) (payments : List (Key × Amount)) : Nat :=
  paidIn (payments.filter fun payment => payment.1 = account)

theorem paidInto_single (account other : Key) (amount : Amount) :
    paidInto account [(other, amount)] = if other = account then amount.base else 0 := by
  unfold paidInto paidIn
  by_cases same : other = account
  · simp [same]
  · simp [same]

/-- Payments of two histories add up. -/
theorem paidIn_append (first second : List (Key × Amount)) :
    paidIn (first ++ second) = paidIn first + paidIn second := by
  unfold paidIn
  rw [List.map_append, List.sum_append]

theorem paidInto_append (account : Key) (first second : List (Key × Amount)) :
    paidInto account (first ++ second) = paidInto account first + paidInto account second := by
  unfold paidInto
  rw [List.filter_append, paidIn_append]

/-- What a change brings in from outside. -/
def Change.payments : Change → List (Key × Amount)
  | .entered _ | .told _ => []
  | .paid account amount => [(account, amount)]

/-- What an operation brings in from outside when it succeeds. -/
def Operation.payments : Operation → List (Key × Amount)
  | .deposit account amount => [(account, amount)]
  | _ => []

/-- Nothing comes in from outside but deposits. -/
theorem Operation.Does.payments {now : Int64} {operation : Operation} {reply : Reply}
    {changes : List Change} (does : operation.Does now reply changes) :
    changes.flatMap Change.payments = operation.payments := by
  cases does with
  | swept market ended =>
      rw [List.flatMap_map]
      exact List.flatMap_eq_nil_iff.2 fun _ _ => rfl
  | _ => rfl

namespace Store

/-- The prices of the jobs of all markets that an account has paid for and not got back. -/
def spent (store : Store) (account : Key) : Nat :=
  store.venues.total fun venue => venue.jobs.total (Job.spentBy account)

/-- The prices that an account was paid for jobs of all markets. -/
def earned (store : Store) (account : Key) : Nat :=
  store.venues.total fun venue => venue.jobs.total (Job.earnedBy account)

/-- The sum of all vaults. -/
def escrow (store : Store) : Nat :=
  store.venues.total fun venue => venue.vault.balance.base

variable {now : Int64} {store middle after : Store} {seen : Change} {changes : List Change}
  {payments : List (Key × Amount)}

/-- A store comes from another with payments from outside and nothing else: the accounts follow
them one by one, and so do all funds together. -/
structure Follows (store after : Store) (payments : List (Key × Amount)) : Prop where
  account : ∀ account,
    (after.balance account).base + after.spent account + store.earned account =
      (store.balance account).base + store.spent account + after.earned account +
        paidInto account payments
  funds : after.balances.funds + after.escrow =
    store.balances.funds + store.escrow + paidIn payments

theorem Follows.same (store : Store) : store.Follows store [] := ⟨fun _ => rfl, rfl⟩

theorem Follows.forgetEvents (store : Store) : store.Follows { store with events := [] } [] :=
  ⟨fun _ => rfl, rfl⟩

/-- Changes of the balances one after the other add up. -/
theorem Follows.trans {later : List (Key × Amount)} (first : store.Follows middle payments)
    (second : middle.Follows after later) : store.Follows after (payments ++ later) := by
  constructor
  · intro account
    have before := first.account account
    have afterwards := second.account account
    rw [paidInto_append]
    omega
  · have before := first.funds
    have afterwards := second.funds
    rw [paidIn_append]
    omega

/-- What a desk conserves, the store conserves when the desk is filed. -/
theorem follows_of_file {market : Key} {venue : Venue} {desk : Desk}
    (found : store.venues.get? market = some venue)
    (conserves : Desk.Conserves ⟨venue, store.balances⟩ desk)
    (venues : after.venues = store.venues.insert market desk.venue)
    (balances : after.balances = desk.balances) : store.Follows after [] := by
  constructor
  · intro account
    have kept := conserves.account account
    have spent := KeyMap.total_insert_of_get?
      (fun venue => venue.jobs.total (Job.spentBy account)) desk.venue found
    have earned := KeyMap.total_insert_of_get?
      (fun venue => venue.jobs.total (Job.earnedBy account)) desk.venue found
    unfold balance Store.spent Store.earned
    rw [venues, balances]
    dsimp only at kept spent earned
    change _ = _ + 0
    omega
  · have kept := conserves.funds
    have escrowed := KeyMap.total_insert_of_get?
      (fun venue => venue.vault.balance.base) desk.venue found
    unfold escrow
    rw [venues, balances]
    dsimp only at kept escrowed
    change _ = _ + 0
    omega

/-- Every change of a store moves the money that its records tell. Only the market that is put back
has changed, so that its own ledger accounts for all of it. -/
theorem Step.follows (step : Step now store seen after) : store.Follows after seen.payments := by
  cases step with
  | opened id authority params fresh valid =>
      constructor
      · intro account
        have spent := KeyMap.total_insert_new (fun venue => venue.jobs.total (Job.spentBy account))
          (Venue.new id authority params) fresh
        have earned := KeyMap.total_insert_new (fun venue => venue.jobs.total (Job.earnedBy account))
          (Venue.new id authority params) fresh
        change _ + KeyMap.total _ (store.venues.insert id (Venue.new id authority params)) + _ =
          _ + KeyMap.total _ (store.venues.insert id (Venue.new id authority params)) + _
        rw [spent, earned]
        rfl
      · have escrowed := KeyMap.total_insert_new (fun venue => venue.vault.balance.base)
          (Venue.new id authority params) fresh
        change _ + KeyMap.total _ (store.venues.insert id (Venue.new id authority params)) = _
        rw [escrowed]
        rfl
  | entered market client request venue admission event desk found unused entry =>
      exact follows_of_file found entry.conserves rfl rfl
  | traded market venue event desk found step =>
      exact follows_of_file found step.conserves rfl rfl
  | paid account amount total positive credited =>
      constructor
      · intro other
        change ((BalanceBook.mk (store.balances.accounts.insert account total)).balance other).base +
          store.spent other + store.earned other =
            (store.balances.balance other).base + store.spent other + store.earned other +
              paidInto other [(account, amount)]
        rw [BalanceBook.balance_of_insert, paidInto_single]
        by_cases same : account = other
        · subst same
          rw [if_pos rfl, if_pos rfl, credited]
          omega
        · rw [if_neg same, if_neg same]
          omega
      · have grown := store.balances.funds_of_insert account total
        change (BalanceBook.mk (store.balances.accounts.insert account total)).funds + store.escrow =
          _ + _ + (amount.base + 0)
        omega

/-- Changes one after the other move the money that all of them tell. -/
theorem Steps.follows (steps : Steps now store changes after) :
    store.Follows after (changes.flatMap Change.payments) := by
  induction steps with
  | none store => exact .same store
  | more first rest inductionHypothesis => exact first.follows.trans inductionHypothesis

/-- What a move brings in from outside. -/
def paymentsOf (store : Store) : Move → List (Key × Amount)
  | .perform now operation =>
    match (store.apply now operation).1 with
    | .ok _ => operation.payments
    | .error _ => []
  | .takeEvents | .restart => []

/-- A deposit that succeeds pays in. -/
theorem paymentsOf_of_ok {operation : Operation} {reply : Reply}
    (succeeded : (store.apply now operation).1 = .ok reply) :
    store.paymentsOf (.perform now operation) = operation.payments := by
  rw [paymentsOf, succeeded]

theorem paymentsOf_of_error {operation : Operation} {cause : MarketError}
    (failed : (store.apply now operation).1 = .error cause) :
    store.paymentsOf (.perform now operation) = [] := by
  rw [paymentsOf, failed]

/-- The deposits of a history that succeed, in order. -/
def deposits (store : Store) : List Move → List (Key × Amount)
  | [] => []
  | move :: rest => store.paymentsOf move ++ (store.move move).deposits rest

/-- A move changes the balances by what was paid in and what the records tell. -/
theorem Sound.follows_move (sound : store.Sound) (move : Move) :
    store.Follows (store.move move) (store.paymentsOf move) := by
  cases move with
  | perform now operation =>
      change store.Follows (store.apply now operation).2 _
      cases answer : (store.apply now operation).1 with
      | ok reply =>
          obtain ⟨changes, does, steps⟩ := steps_of_apply now sound answer
          rw [paymentsOf_of_ok answer, ← does.payments]
          exact steps.follows
      | error cause =>
          rw [(apply_of_error now sound answer).2, paymentsOf_of_error answer]
          exact .same store
  | takeEvents => exact .forgetEvents store
  | restart =>
      rw [move_restart sound]
      exact .forgetEvents store

/-- A history changes the balances by what was paid in and what the records tell. -/
theorem Sound.follows_after (sound : store.Sound) (moves : List Move) :
    store.Follows (store.after moves) (store.deposits moves) := by
  induction moves generalizing store with
  | nil => exact .same store
  | cons move rest inductionHypothesis =>
      exact (sound.follows_move move).trans (inductionHypothesis (sound.move move))

/-- In a store that starts empty, what an account has and has spent is what was deposited for it
and what it has earned, and all balances and vaults together hold all the deposits. -/
theorem accounts_balance {config : Config} {start : Store} (opened : new config = .ok start)
    (moves : List Move) :
    (∀ account,
      ((start.after moves).balance account).base + (start.after moves).spent account =
        paidInto account (start.deposits moves) + (start.after moves).earned account) ∧
    (start.after moves).balances.funds + (start.after moves).escrow =
      paidIn (start.deposits moves) := by
  have follows := (sound_of_new opened).follows_after moves
  obtain ⟨-, same⟩ := Guard.unit_bind_eq_ok.1 opened
  cases same
  constructor
  · intro account
    have exact := follows.account account
    change _ + _ + 0 = 0 + 0 + _ + _ at exact
    omega
  · have exact := follows.funds
    change _ = 0 + 0 + _ at exact
    omega

theorem accounts_balance_trade :
    new {} = .ok (empty {}) ∧
    (((empty {}).after trade).balance (Key.ofBytes [3])).base +
        ((empty {}).after trade).spent (Key.ofBytes [3]) =
      paidInto (Key.ofBytes [3]) ((empty {}).deposits trade) +
        ((empty {}).after trade).earned (Key.ofBytes [3]) ∧
    ((empty {}).after trade).balances.funds + ((empty {}).after trade).escrow =
      paidIn ((empty {}).deposits trade) :=
  have opened : new {} = .ok (empty {}) := rfl
  ⟨opened, (accounts_balance opened trade).1 _, (accounts_balance opened trade).2⟩

example :
    ((empty {}).after trade).balance (Key.ofBytes [2]) = .ofTokens 1 ∧
    ((empty {}).after trade).balance (Key.ofBytes [3]) = .ofTokens 2 := by decide +kernel

end Store

end ComputeMarket
