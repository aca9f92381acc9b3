import ComputeMarket.Error
import ComputeMarket.KeyMap

/-
This file defines the payable balances of clients and nodes.
-/

namespace ComputeMarket

/-- The balances of all accounts that ever had one. -/
structure BalanceBook where
  accounts : KeyMap Amount
  deriving DecidableEq, Inhabited

namespace BalanceBook

def empty : BalanceBook := ⟨.empty⟩

/-- An unknown account has nothing. -/
def balance (book : BalanceBook) (account : Key) : Amount :=
  (book.accounts.get? account).getD .zero

/-- Checks that an account covers a payment. -/
def allowDebit (book : BalanceBook) (account : Key) (amount : Amount) : Except MarketError Unit :=
  if book.balance account < amount then
    .error (.insufficientFunds amount (book.balance account))
  else .ok ()

/-- Checks that an account has room for a credit. -/
def allowCredit (book : BalanceBook) (account : Key) (amount : Amount) :
    Except MarketError Unit :=
  if ((book.balance account).add? amount).isSome then .ok ()
  else .error (.overflow (.account account))

/-- Adds an amount, and tells the new balance. -/
def credit (book : BalanceBook) (account : Key) (amount : Amount) :
    Except MarketError (Amount × BalanceBook) :=
  match (book.balance account).add? amount with
  | some total => .ok (total, ⟨book.accounts.insert account total⟩)
  | none => .error (.overflow (.account account))

/-- Takes an amount off, and tells the new balance. -/
def debit (book : BalanceBook) (account : Key) (amount : Amount) :
    Except MarketError (Amount × BalanceBook) := do
  book.allowDebit account amount
  let rest := ((book.balance account).sub? amount).getD .zero
  return (rest, ⟨book.accounts.insert account rest⟩)

end BalanceBook

end ComputeMarket
