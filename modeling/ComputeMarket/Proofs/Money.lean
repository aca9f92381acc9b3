import ComputeMarket.BalanceBook
import ComputeMarket.Vault
import ComputeMarket.Proofs.KeyMap

/-
This file describes what the movements of money do to the balance book and to a vault, in exact
numbers.
-/

namespace ComputeMarket

/-- A call that one condition decides. Where the condition holds the call succeeds with a result as
described, and elsewhere it is refused for the one cause. -/
structure Decided {α : Type} (condition : Prop) (call : Except MarketError α) (result : α → Prop)
    (cause : MarketError) : Prop where
  succeeds : (∃ value, call = .ok value) ↔ condition
  exact : ∀ value, call = .ok value → result value
  refused : ∀ other, call = .error other ↔ ¬ condition ∧ other = cause

namespace Decided

variable {α : Type} {condition : Prop} {call : Except MarketError α} {result : α → Prop}
  {cause : MarketError} {value : α}

/-- A call is decided by a condition if it succeeds as described where the condition holds, and is
refused for the one cause elsewhere. -/
theorem of_cases (accepts : condition → ∃ value, call = .ok value ∧ result value)
    (refuses : ¬ condition → call = .error cause) : Decided condition call result cause := by
  by_cases holds : condition
  · obtain ⟨value, called, described⟩ := accepts holds
    subst called
    refine ⟨⟨fun _ => holds, fun _ => ⟨value, rfl⟩⟩, ?_, ?_⟩
    · rintro _ ⟨⟩
      exact described
    · simp only [reduceCtorEq, holds, not_true_eq_false, false_and, implies_true]
  · have called := refuses holds
    subst called
    refine ⟨⟨?_, fun condition => absurd condition holds⟩, ?_, ?_⟩
    · rintro ⟨value, ⟨⟩⟩
    · rintro value ⟨⟩
    · simp only [Except.error.injEq, holds, not_false_eq_true, true_and, eq_comm, implies_true]

/-- A decided call keeps its condition and its cause under a weaker description. -/
theorem imp {weaker : α → Prop} (decided : Decided condition call result cause)
    (implies : ∀ value, result value → weaker value) : Decided condition call weaker cause where
  succeeds := decided.succeeds
  exact value called := implies value (decided.exact value called)
  refused := decided.refused

/-- A description that only one value meets says when a call succeeds with it. -/
theorem eq_ok (decided : Decided condition call result cause)
    (possible : result value → condition)
    (unique : ∀ other, result other → result value → other = value) :
    call = .ok value ↔ result value := by
  constructor
  · exact decided.exact value
  · intro described
    obtain ⟨other, called⟩ := decided.succeeds.2 (possible described)
    rw [called, unique other (decided.exact other called) described]

end Decided

namespace Amount

variable {left right : Amount}

/-- Amounts have no sum exactly when it would exceed 64 bits. -/
theorem add?_eq_none : left.add? right = none ↔ 0x10000000000000000 ≤ left.base + right.base := by
  unfold add? ofBase?
  split
  · rename_i fits
    simp only [reduceCtorEq, false_iff]
    omega
  · rename_i large
    simp only [true_iff]
    omega

theorem base_le_largest (amount : Amount) : amount.base ≤ largest.base :=
  Nat.le_of_lt_succ amount.base_lt

/-- Amounts whose sum fits have that sum. -/
theorem exists_add? (fits : left.base + right.base ≤ largest.base) :
    ∃ total, left.add? right = some total ∧ total.base = left.base + right.base := by
  let total : Amount := ⟨left.base + right.base, Nat.lt_succ_of_le fits⟩
  exact ⟨total, add?_eq_some.2 rfl, rfl⟩

theorem add?_of_not_le (exceeds : ¬ left.base + right.base ≤ largest.base) :
    left.add? right = none :=
  add?_eq_none.2 (Nat.lt_of_not_le exceeds)

/-- A smaller amount can be taken from a larger one, and the rest is exact. -/
theorem exists_sub? (enough : right ≤ left) :
    ∃ rest, left.sub? right = some rest ∧ rest.base + right.base = left.base := by
  have exact : left.base - right.base + right.base = left.base := Nat.sub_add_cancel enough
  have bounded := Nat.lt_of_le_of_lt (Nat.sub_le left.base right.base) left.base_lt
  exact ⟨⟨left.base - right.base, bounded⟩, sub?_eq_some.2 exact, exact⟩

theorem sub?_of_not_le (short : ¬ right ≤ left) : left.sub? right = none :=
  if_neg short

end Amount

namespace BalanceBook

variable {book next : BalanceBook} {account : Key} {amount total rest : Amount}

/-- The sum of all balances. -/
def funds (book : BalanceBook) : Nat := book.accounts.total Amount.base

/-- A new balance is that of its own account, and all others are as before. -/
theorem balance_of_insert (book : BalanceBook) (account other : Key) (amount : Amount) :
    (BalanceBook.mk (book.accounts.insert account amount)).balance other =
      if account = other then amount else book.balance other := by
  unfold balance
  rw [KeyMap.get?_insert]
  split <;> rfl

/-- An account without an entry has the balance zero. -/
theorem elim_base_eq_balance (book : BalanceBook) (account : Key) :
    (book.accounts.get? account).elim 0 Amount.base = (book.balance account).base := by
  unfold balance
  cases book.accounts.get? account <;> rfl

/-- An account that has something is on the books. -/
theorem get?_of_balance_ne_zero (funded : book.balance account ≠ .zero) :
    book.accounts.get? account = some (book.balance account) := by
  unfold balance at funded ⊢
  cases found : book.accounts.get? account with
  | none =>
      rw [found] at funded
      exact absurd rfl funded
  | some amount => rfl

/-- A new balance changes the total by what its account gained or lost. -/
theorem funds_of_insert (book : BalanceBook) (account : Key) (amount : Amount) :
    (BalanceBook.mk (book.accounts.insert account amount)).funds + (book.balance account).base =
      book.funds + amount.base := by
  rw [← elim_base_eq_balance]
  exact KeyMap.total_insert Amount.base book.accounts account amount

/-- An account can pay what it has. -/
theorem decided_allowDebit (book : BalanceBook) (account : Key) (amount : Amount) :
    Decided (amount ≤ book.balance account) (book.allowDebit account amount) (fun _ => True)
      (.insufficientFunds amount (book.balance account)) := by
  apply Decided.of_cases
  · intro enough
    exact ⟨(), if_neg (Nat.not_lt_of_le enough), trivial⟩
  · intro short
    exact if_pos (Nat.lt_of_not_le short)

/-- A payment succeeds exactly if the balance covers it, and takes the exact amount. -/
theorem decided_debit (book : BalanceBook) (account : Key) (amount : Amount) :
    Decided (amount ≤ book.balance account) (book.debit account amount)
      (fun (rest, next) => rest.base + amount.base = (book.balance account).base ∧
        next = ⟨book.accounts.insert account rest⟩)
      (.insufficientFunds amount (book.balance account)) := by
  have check := book.decided_allowDebit account amount
  unfold debit
  apply Decided.of_cases
  · intro enough
    obtain ⟨done, allowed⟩ := check.succeeds.2 enough
    obtain ⟨rest, difference, exact⟩ := Amount.exists_sub? enough
    rw [allowed, difference]
    exact ⟨(rest, _), rfl, exact, rfl⟩
  · intro short
    rw [(check.refused _).2 ⟨short, rfl⟩]
    rfl

/-- An account can receive what leaves its balance an amount. -/
theorem decided_allowCredit (book : BalanceBook) (account : Key) (amount : Amount) :
    Decided ((book.balance account).base + amount.base ≤ Amount.largest.base)
      (book.allowCredit account amount) (fun _ => True) (.overflow (.account account)) := by
  unfold allowCredit
  apply Decided.of_cases
  · intro fits
    obtain ⟨total, sum, -⟩ := Amount.exists_add? fits
    rw [sum]
    exact ⟨(), rfl, trivial⟩
  · intro exceeds
    rw [Amount.add?_of_not_le exceeds]
    rfl

/-- A credit succeeds exactly if the new balance fits, and adds the exact amount. -/
theorem decided_credit (book : BalanceBook) (account : Key) (amount : Amount) :
    Decided ((book.balance account).base + amount.base ≤ Amount.largest.base)
      (book.credit account amount)
      (fun (total, next) => total.base = (book.balance account).base + amount.base ∧
        next = ⟨book.accounts.insert account total⟩)
      (.overflow (.account account)) := by
  unfold credit
  apply Decided.of_cases
  · intro fits
    obtain ⟨total, sum, exact⟩ := Amount.exists_add? fits
    rw [sum]
    exact ⟨(total, _), rfl, exact, rfl⟩
  · intro exceeds
    rw [Amount.add?_of_not_le exceeds]

/-- A credit answers with the exact new balance, and its account alone has changed. -/
theorem credit_eq_ok :
    book.credit account amount = .ok (total, next) ↔
      total.base = (book.balance account).base + amount.base ∧
        next = ⟨book.accounts.insert account total⟩ := by
  apply (book.decided_credit account amount).eq_ok
  · rintro ⟨sum, -⟩
    exact sum ▸ total.base_le_largest
  · rintro ⟨known, other⟩ ⟨found, rfl⟩ ⟨sum, rfl⟩
    rw [Amount.ext (found.trans sum.symm)]

/-- A credit is refused for one cause only, a balance that would not fit. -/
theorem credit_eq_error {cause : MarketError} (refused : book.credit account amount = .error cause) :
    cause = .overflow (.account account) ∧
      0x10000000000000000 ≤ (book.balance account).base + amount.base := by
  obtain ⟨exceeds, same⟩ := ((book.decided_credit account amount).refused cause).1 refused
  exact ⟨same, Nat.lt_of_not_le exceeds⟩

/-- A credit that is allowed is made. -/
theorem credit_of_allowCredit {done : Unit} (allowed : book.allowCredit account amount = .ok done) :
    ∃ total, total.base = (book.balance account).base + amount.base ∧
      book.credit account amount = .ok (total, ⟨book.accounts.insert account total⟩) := by
  have fits := (book.decided_allowCredit account amount).succeeds.1 ⟨done, allowed⟩
  obtain ⟨⟨total, next⟩, credited⟩ := (book.decided_credit account amount).succeeds.2 fits
  obtain ⟨exact, same⟩ := credit_eq_ok.1 credited
  exact ⟨total, exact, same ▸ credited⟩

/-- The check of a credit has the same cause as the credit itself. -/
theorem allowCredit_eq_error {cause : MarketError}
    (refused : book.allowCredit account amount = .error cause) :
    cause = .overflow (.account account) ∧
      0x10000000000000000 ≤ (book.balance account).base + amount.base := by
  obtain ⟨exceeds, same⟩ := ((book.decided_allowCredit account amount).refused cause).1 refused
  exact ⟨same, Nat.lt_of_not_le exceeds⟩

/-- A payment answers with the exact rest, and its account alone has changed. -/
theorem debit_eq_ok :
    book.debit account amount = .ok (rest, next) ↔
      rest.base + amount.base = (book.balance account).base ∧
        next = ⟨book.accounts.insert account rest⟩ := by
  apply (book.decided_debit account amount).eq_ok
  · rintro ⟨difference, -⟩
    rw [Amount.le_iff]
    omega
  · rintro ⟨known, other⟩ ⟨found, rfl⟩ ⟨difference, rfl⟩
    rw [Amount.ext (Nat.add_right_cancel (found.trans difference.symm))]

/-- A debit that is allowed is made. -/
theorem debit_of_allowDebit {done : Unit} (allowed : book.allowDebit account amount = .ok done) :
    ∃ rest, rest.base + amount.base = (book.balance account).base ∧
      book.debit account amount = .ok (rest, ⟨book.accounts.insert account rest⟩) := by
  have enough := (book.decided_allowDebit account amount).succeeds.1 ⟨done, allowed⟩
  obtain ⟨⟨rest, next⟩, debited⟩ := (book.decided_debit account amount).succeeds.2 enough
  obtain ⟨exact, same⟩ := debit_eq_ok.1 debited
  exact ⟨rest, exact, same ▸ debited⟩

/-- The check of a payment has one cause only, a balance that does not cover it. -/
theorem allowDebit_eq_error {cause : MarketError}
    (refused : book.allowDebit account amount = .error cause) :
    cause = .insufficientFunds amount (book.balance account) ∧
      (book.balance account).base < amount.base := by
  obtain ⟨short, same⟩ := ((book.decided_allowDebit account amount).refused cause).1 refused
  exact ⟨same, Nat.lt_of_not_le short⟩

end BalanceBook

namespace Vault

variable {vault next : Vault} {amount total : Amount}

theorem ext {left right : Vault} (address : left.address = right.address)
    (balance : left.balance.base = right.balance.base) : left = right := by
  cases left
  cases right
  simp_all [Amount.ext_iff]

/-- The check of a deposit foresees the exact balance, or refuses a balance that would not fit. -/
theorem decided_afterDeposit (vault : Vault) (amount : Amount) :
    Decided (vault.balance.base + amount.base ≤ Amount.largest.base) (vault.afterDeposit amount)
      (fun total => total.base = vault.balance.base + amount.base)
      (.overflow (.vault vault.address)) := by
  unfold afterDeposit
  apply Decided.of_cases
  · intro fits
    obtain ⟨total, sum, exact⟩ := Amount.exists_add? fits
    rw [sum]
    exact ⟨total, rfl, exact⟩
  · intro exceeds
    rw [Amount.add?_of_not_le exceeds]

/-- A deposit succeeds exactly if the new balance fits, and adds the exact amount. -/
theorem decided_deposit (vault : Vault) (amount : Amount) :
    Decided (vault.balance.base + amount.base ≤ Amount.largest.base) (vault.deposit amount)
      (fun next => next.balance.base = vault.balance.base + amount.base ∧
        next.address = vault.address)
      (.overflow (.vault vault.address)) := by
  have check := vault.decided_afterDeposit amount
  unfold deposit
  apply Decided.of_cases
  · intro fits
    obtain ⟨total, allowed⟩ := check.succeeds.2 fits
    rw [allowed]
    exact ⟨_, rfl, check.exact total allowed, rfl⟩
  · intro exceeds
    rw [(check.refused _).2 ⟨exceeds, rfl⟩]
    rfl

/-- A withdrawal succeeds exactly if the vault covers it, and takes the exact amount. -/
theorem decided_withdraw (vault : Vault) (amount : Amount) :
    Decided (amount ≤ vault.balance) (vault.withdraw amount)
      (fun next => next.balance.base + amount.base = vault.balance.base ∧
        next.address = vault.address)
      (.violation (.vaultShort vault.address vault.balance amount)) := by
  unfold withdraw
  apply Decided.of_cases
  · intro enough
    obtain ⟨rest, difference, exact⟩ := Amount.exists_sub? enough
    rw [difference]
    exact ⟨_, rfl, exact, rfl⟩
  · intro short
    rw [Amount.sub?_of_not_le short]

/-- A deposit adds the exact amount and keeps the address. -/
theorem deposit_eq_ok :
    vault.deposit amount = .ok next ↔
      next.balance.base = vault.balance.base + amount.base ∧ next.address = vault.address := by
  apply (vault.decided_deposit amount).eq_ok
  · rintro ⟨sum, -⟩
    exact sum ▸ next.balance.base_le_largest
  · rintro other ⟨found, same⟩ ⟨sum, address⟩
    exact Vault.ext (same.trans address.symm) (found.trans sum.symm)

/-- A withdrawal takes the exact amount and keeps the address. -/
theorem withdraw_eq_ok :
    vault.withdraw amount = .ok next ↔
      next.balance.base + amount.base = vault.balance.base ∧ next.address = vault.address := by
  apply (vault.decided_withdraw amount).eq_ok
  · rintro ⟨difference, -⟩
    rw [Amount.le_iff]
    omega
  · rintro other ⟨found, same⟩ ⟨difference, address⟩
    exact Vault.ext (same.trans address.symm)
      (Nat.add_right_cancel (found.trans difference.symm))

/-- A deposit whose sum was found is made. -/
theorem deposit_of_afterDeposit (allowed : vault.afterDeposit amount = .ok total) :
    total.base = vault.balance.base + amount.base ∧
      vault.deposit amount = .ok { vault with balance := total } := by
  have exact := (vault.decided_afterDeposit amount).exact total allowed
  exact ⟨exact, deposit_eq_ok.2 ⟨exact, rfl⟩⟩

/-- The check of a deposit is refused for one cause only, a balance that would not fit. -/
theorem afterDeposit_eq_error {cause : MarketError}
    (refused : vault.afterDeposit amount = .error cause) :
    cause = .overflow (.vault vault.address) ∧
      0x10000000000000000 ≤ vault.balance.base + amount.base := by
  obtain ⟨exceeds, same⟩ := ((vault.decided_afterDeposit amount).refused cause).1 refused
  exact ⟨same, Nat.lt_of_not_le exceeds⟩

/-- What a vault holds can be taken out. -/
theorem withdraw_of_le (enough : amount.base ≤ vault.balance.base) :
    ∃ rest : Amount, rest.base + amount.base = vault.balance.base ∧
      vault.withdraw amount = .ok { vault with balance := rest } := by
  obtain ⟨rest, -, exact⟩ := Amount.exists_sub? enough
  exact ⟨rest, exact, withdraw_eq_ok.2 ⟨exact, rfl⟩⟩

end Vault

end ComputeMarket
