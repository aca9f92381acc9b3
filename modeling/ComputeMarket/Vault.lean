import ComputeMarket.Error

/-
This file defines the escrow vault of a market.
-/

namespace ComputeMarket

/-- Holds the prices of the open jobs of one market. -/
structure Vault where
  address : Key
  balance : Amount
  deriving DecidableEq

namespace Vault

/-- The seed that sets vaults apart from other derived keys. -/
def seed : List UInt8 := "vault".toList.map Char.toUInt8

/-- The address of a market's vault. -/
def addressOf (market : Key) : Key := Key.derive [seed, market.bytes]

/-- The vault of a market with a balance. -/
def ofMarket (market : Key) (balance : Amount) : Vault := ⟨addressOf market, balance⟩

/-- The balance after a deposit. -/
def afterDeposit (vault : Vault) (amount : Amount) : Except MarketError Amount :=
  match vault.balance.add? amount with
  | some total => .ok total
  | none => .error (.overflow (.vault vault.address))

def deposit (vault : Vault) (amount : Amount) : Except MarketError Vault := do
  let total ← vault.afterDeposit amount
  return { vault with balance := total }

/-- Takes a job's price out, for the node or for the client. -/
def withdraw (vault : Vault) (amount : Amount) : Except MarketError Vault :=
  match vault.balance.sub? amount with
  | some rest => .ok { vault with balance := rest }
  | none => .error (.violation (.vaultShort vault.address vault.balance amount))

end Vault

end ComputeMarket
