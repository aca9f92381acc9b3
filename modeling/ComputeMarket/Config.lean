import ComputeMarket.Error

/-
This file defines the configuration of a market store.
-/

namespace ComputeMarket

/-- Which open jobs can time out. -/
inductive Expiry where
  /-- Running jobs only, from the moment they started. -/
  | runningOnly
  /-- Queued jobs as well, from the moment they were created. -/
  | queuedAndRunning
  deriving DecidableEq, Inhabited

/-- What can be set for all markets of a store. -/
structure Config where
  /-- How many entries may wait in the queue of one market. -/
  capacity : Count := .ofNat 314
  expiry : Expiry := .queuedAndRunning
  /-- Refuse a result that comes after the deadline of its job. -/
  enforceDeadline : Bool := true
  trackReputation : Bool := true
  deriving DecidableEq, Inhabited

namespace Config

/-- Checks that something can wait in a queue. -/
def validate (config : Config) : Except MarketError Unit :=
  if config.capacity = .zero then .error (.invalidInput .zeroCapacity) else .ok ()

end Config

end ComputeMarket
