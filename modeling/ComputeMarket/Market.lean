import ComputeMarket.Queue
import ComputeMarket.Vault

/-
This file defines market records and the answers to arrivals.
-/

namespace ComputeMarket

/-- The terms of a market, which never change. -/
structure MarketParams where
  price : Amount
  /-- The seconds that a job may take. -/
  timeout : Int64
  /-- The least stake of a node. -/
  minimumStake : Stake
  deriving DecidableEq

namespace MarketParams

/-- Checks that the terms ask for a price and leave some time. -/
def validate (params : MarketParams) : Except MarketError Unit :=
  if params.price.isZero then .error (.invalidInput .zeroPrice)
  else if params.timeout ≤ 0 then .error (.invalidInput (.timeoutNotPositive params.timeout))
  else .ok ()

/-- The terms are valid exactly if the price is not zero and the time is positive. -/
theorem validate_eq_ok {params : MarketParams} :
    params.validate = .ok () ↔ params.price ≠ .zero ∧ 0 < params.timeout := by
  unfold validate
  rw [ne_eq, ← Amount.isZero_iff, ← Int64.not_le]
  by_cases free : params.price.isZero = true
  · simp [free]
  · by_cases endless : params.timeout ≤ 0 <;> simp [free, endless]

end MarketParams

/-- A venue with one price, where jobs and nodes are paired. -/
structure Market where
  id : Key
  authority : Key
  vault : Key
  params : MarketParams
  queue : Queue
  /-- How many jobs were ever created here. -/
  jobCount : Count
  /-- How many listings of nodes were ever accepted here. -/
  listingCount : Count
  deriving DecidableEq

namespace Market

def seed : List UInt8 := "market".toList.map Char.toUInt8

/-- The id that an authority's market number `nonce` is given. -/
def idOf (authority : Key) (nonce : UInt64) : Key :=
  Key.derive [seed, authority.bytes, Key.lengthBytes nonce.toNat]

/-- A new market where nothing waits. -/
def new (id authority : Key) (params : MarketParams) : Market where
  id := id
  authority := authority
  vault := Vault.addressOf id
  params := params
  queue := .empty
  jobCount := .zero
  listingCount := .zero

end Market

/-- What became of a new job. -/
inductive JobAdmission where
  | queued (position : Count)
  | matched (node : Key)
  deriving DecidableEq

/-- What became of a listed node. -/
inductive NodeAdmission where
  | queued (position : Count)
  | matched (job : Key)
  deriving DecidableEq

end ComputeMarket
