import ComputeMarket.Proofs.Outcome

/-
This file proves that the checks made before money moves agree with the movements themselves: both
succeed exactly where the new balance is an amount, and both refuse the rest for the same cause.
-/

namespace ComputeMarket

namespace BalanceBook

variable {book next last : BalanceBook} {account : Key} {amount told rest total : Amount}

/-- A book with a new balance for one account, and with every other balance as before. -/
structure Rebalanced (book : BalanceBook) (account : Key) (balance : Amount) (next : BalanceBook) :
    Prop where
  own : next.balance account = balance
  others : ∀ other, other ≠ account → next.balance other = book.balance other

/-- How a book moves an amount on an account. A movement tells the new balance, which is the exact
difference or sum, and the opposite movement right after it is made and restores every balance. A
movement that is refused leaves the desk of the book as it was. -/
structure MovesExactly (book : BalanceBook) (account : Key) (amount : Amount) : Prop where
  allowDebit : Decided (amount ≤ book.balance account) (book.allowDebit account amount)
    (fun _ => True) (.insufficientFunds amount (book.balance account))
  debit : Decided (amount ≤ book.balance account) (book.debit account amount)
    (fun (rest, next) => rest.base + amount.base = (book.balance account).base ∧
      book.Rebalanced account rest next)
    (.insufficientFunds amount (book.balance account))
  allowCredit : Decided ((book.balance account).base + amount.base ≤ Amount.largest.base)
    (book.allowCredit account amount) (fun _ => True) (.overflow (.account account))
  credit : Decided ((book.balance account).base + amount.base ≤ Amount.largest.base)
    (book.credit account amount)
    (fun (total, next) => total.base = (book.balance account).base + amount.base ∧
      book.Rebalanced account total next)
    (.overflow (.account account))
  debited : ∀ rest next, book.debit account amount = .ok (rest, next) → ∃ last,
    next.credit account amount = .ok (book.balance account, last) ∧ last.balance = book.balance
  credited : ∀ total next, book.credit account amount = .ok (total, next) → ∃ last,
    next.debit account amount = .ok (book.balance account, last) ∧ last.balance = book.balance
  unchanged : ∀ desk cause, desk.balances = book →
    (book.debit account amount = .error cause →
      (Desk.debit account amount).run desk = .error cause desk) ∧
    (book.credit account amount = .error cause →
      (Desk.credit account amount).run desk = .error cause desk)

/-- A new balance of an account is all that an insertion changes. -/
theorem rebalanced_insert (book : BalanceBook) (account : Key) (balance : Amount) :
    book.Rebalanced account balance ⟨book.accounts.insert account balance⟩ where
  own := by rw [balance_of_insert, if_pos rfl]
  others other different := by rw [balance_of_insert, if_neg different.symm]

/-- A second change to the same account restores every balance when it gives the old one back. -/
theorem Rebalanced.restored (first : book.Rebalanced account told next)
    (second : next.Rebalanced account (book.balance account) last) :
    last.balance = book.balance := by
  funext other
  by_cases same : other = account
  · rw [same, second.own]
  · rw [second.others other same, first.others other same]

/-- A credit of what was paid restores all balances. -/
theorem credit_of_debit (debited : book.debit account amount = .ok (rest, next)) :
    ∃ last, next.credit account amount = .ok (book.balance account, last) ∧
      last.balance = book.balance := by
  obtain ⟨taken, rfl⟩ := debit_eq_ok.1 debited
  have changed := book.rebalanced_insert account rest
  refine ⟨_, credit_eq_ok.2 ⟨?_, rfl⟩, changed.restored (rebalanced_insert ..)⟩
  rw [changed.own, taken]

theorem debit_of_credit (credited : book.credit account amount = .ok (total, next)) :
    ∃ last, next.debit account amount = .ok (book.balance account, last) ∧
      last.balance = book.balance := by
  obtain ⟨given, rfl⟩ := credit_eq_ok.1 credited
  have changed := book.rebalanced_insert account total
  refine ⟨_, debit_eq_ok.2 ⟨?_, rfl⟩, changed.restored (rebalanced_insert ..)⟩
  rw [changed.own, given]

/-- The movements of a book are exact, agree with their checks and undo each other. -/
theorem movesExactly (book : BalanceBook) (account : Key) (amount : Amount) :
    book.MovesExactly account amount where
  allowDebit := book.decided_allowDebit account amount
  debit := by
    apply (book.decided_debit account amount).imp
    rintro ⟨rest, next⟩ ⟨exact, rfl⟩
    exact ⟨exact, book.rebalanced_insert account rest⟩
  allowCredit := book.decided_allowCredit account amount
  credit := by
    apply (book.decided_credit account amount).imp
    rintro ⟨total, next⟩ ⟨exact, rfl⟩
    exact ⟨exact, book.rebalanced_insert account total⟩
  debited _ _ := credit_of_debit
  credited _ _ := debit_of_credit
  unchanged desk cause same := by
    subst same
    constructor <;> intro refused <;>
      simp only [Desk.debit, Desk.credit, EStateM.run_bind, EStateM.run_get, refused] <;> rfl

end BalanceBook

namespace Vault

variable {vault next : Vault} {amount : Amount}

/-- How a vault moves an amount. A deposit and a withdrawal change the balance by exactly the amount
that was asked for, and each of them restores the vault right after the other. One that is refused
leaves the desk of the vault as it was. -/
structure MovesExactly (vault : Vault) (amount : Amount) : Prop where
  afterDeposit : Decided (vault.balance.base + amount.base ≤ Amount.largest.base)
    (vault.afterDeposit amount) (fun total => total.base = vault.balance.base + amount.base)
    (.overflow (.vault vault.address))
  deposit : Decided (vault.balance.base + amount.base ≤ Amount.largest.base) (vault.deposit amount)
    (fun next => next.balance.base = vault.balance.base + amount.base ∧
      next.address = vault.address)
    (.overflow (.vault vault.address))
  withdraw : Decided (amount ≤ vault.balance) (vault.withdraw amount)
    (fun next => next.balance.base + amount.base = vault.balance.base ∧
      next.address = vault.address)
    (.violation (.vaultShort vault.address vault.balance amount))
  deposited : ∀ next, vault.deposit amount = .ok next → next.withdraw amount = .ok vault
  withdrawn : ∀ next, vault.withdraw amount = .ok next → next.deposit amount = .ok vault
  unchanged : ∀ desk cause, desk.venue.vault = vault →
    (vault.deposit amount = .error cause →
      (Desk.deposit amount).run desk = .error cause desk) ∧
    (vault.withdraw amount = .error cause →
      (Desk.withdraw amount).run desk = .error cause desk)

/-- A withdrawal of what was deposited restores the vault. -/
theorem withdraw_of_deposit (deposited : vault.deposit amount = .ok next) :
    next.withdraw amount = .ok vault := by
  obtain ⟨given, address⟩ := deposit_eq_ok.1 deposited
  exact withdraw_eq_ok.2 ⟨given.symm, address.symm⟩

theorem deposit_of_withdraw (withdrawn : vault.withdraw amount = .ok next) :
    next.deposit amount = .ok vault := by
  obtain ⟨taken, address⟩ := withdraw_eq_ok.1 withdrawn
  exact deposit_eq_ok.2 ⟨taken.symm, address.symm⟩

/-- The movements of a vault are exact, agree with their check and undo each other. -/
theorem movesExactly (vault : Vault) (amount : Amount) : vault.MovesExactly amount where
  afterDeposit := vault.decided_afterDeposit amount
  deposit := vault.decided_deposit amount
  withdraw := vault.decided_withdraw amount
  deposited _ := withdraw_of_deposit
  withdrawn _ := deposit_of_withdraw
  unchanged desk cause same := by
    subst same
    constructor <;> intro refused <;>
      simp only [Desk.deposit, Desk.withdraw, EStateM.run_bind, EStateM.run_get, refused] <;> rfl

end Vault

/-- Whatever a book and a vault hold, and whatever the amount: each check passes exactly if the
movement after it is made, that is if the new balance is an amount, and both are refused for the
same cause. -/
theorem money_moves_as_checked (book : BalanceBook) (vault : Vault) (account : Key)
    (amount : Amount) : book.MovesExactly account amount ∧ vault.MovesExactly amount :=
  ⟨book.movesExactly account amount, vault.movesExactly amount⟩

end ComputeMarket
