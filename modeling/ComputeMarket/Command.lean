import ComputeMarket.Report

/-
This file defines the commands that can be given to a market ledger.
-/

namespace ComputeMarket

/-- What a command asks for when it creates a job. -/
structure JobOrder where
  market : Key
  client : Key
  definition : Digest
  vram : UInt8 := 0
  gpu : Gpu := .any
  /-- The id of the job; a fresh one is made if none is given. -/
  id : Option Key := none
  deriving DecidableEq

/-- What a command line can ask for. -/
inductive Command where
  /-- Make a fresh identity. -/
  | keygen
  | deposit (account : Key) (amount : Amount)
  | balance (account : Key)
  | createMarket (authority : Key) (params : MarketParams)
  | showMarket (id : Key)
  | listMarkets
  | createJob (order : JobOrder)
  | showJob (id : Key)
  | listJobs (market : Key)
  | finishJob (id node : Key) (result : Digest)
  | cancelJob (id client : Key)
  | timeoutJob (id : Key)
  | listNode (market node : Key) (stake : Stake)
  | delistNode (market node : Key)
  | showNode (node : Key)
  /-- Time out every job of a market that is past its deadline. -/
  | sweep (market : Key)
  deriving DecidableEq

/-- Whether the command changes the ledger when it succeeds. -/
def Command.mutates : Command → Bool
  | keygen | balance _ | showMarket _ | listMarkets | showJob _ | listJobs _ | showNode _ => false
  | deposit .. | createMarket .. | createJob _ | finishJob .. | cancelJob .. | timeoutJob _
  | listNode .. | delistNode .. | sweep _ => true

/-- The path of the ledger file when none is given. -/
def standardLedger : String := "hypernode-ledger.json"

/-- A command with what it runs on. -/
structure Invocation where
  /-- The path of the ledger file. -/
  ledger : String := standardLedger
  /-- The path of the file with the configuration. -/
  config : Option String := none
  style : Style := .table
  /-- The time to work at, in place of the time of day. -/
  now : Option Int64 := none
  command : Command
  deriving DecidableEq

end ComputeMarket
