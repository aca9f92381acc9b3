import ComputeMarket.Store

/-
This file defines snapshots, the lasting form of a store, and how a store comes back from one.
-/

namespace ComputeMarket

/-- A market with the balance of its vault and all its jobs, oldest first. -/
structure MarketRecord where
  market : Market
  vaultBalance : Amount
  jobs : List Job
  deriving DecidableEq

/-- The lasting state of a store, with its markets ordered by id. -/
structure Snapshot where
  version : UInt32
  markets : List MarketRecord
  balances : BalanceBook
  reputations : KeyMap Reputation
  deriving DecidableEq

namespace Snapshot

/-- The only version of the form. -/
def currentVersion : UInt32 := 1

/-- How many jobs a snapshot records. -/
def jobCount (snapshot : Snapshot) : Nat :=
  snapshot.markets.foldl (fun count record => count + record.jobs.length) 0

end Snapshot

namespace Venue

/-- The record of a market, with its jobs in the order of age. -/
def toRecord (venue : Venue) : MarketRecord where
  market := venue.market
  vaultBalance := venue.vault.balance
  jobs := venue.jobsByAge

/-- Files the jobs of a market under their ids. -/
def fileJobs (market : Key) : List Job → KeyMap Job → Except MarketError (KeyMap Job)
  | [], filed => .ok filed
  | job :: rest, filed =>
    if job.market ≠ market then .error (.violation (.jobMisfiled job.id market job.market))
    else if filed.contains job.id then .error (.violation (.jobRecordedTwice job.id))
    else fileJobs market rest (filed.insert job.id job)

/-- The ledger that a record describes, if its parts agree. -/
def ofRecord (record : MarketRecord) : Except MarketError Venue := do
  let jobs ← fileJobs record.market.id record.jobs .empty
  let venue : Venue :=
    { market := record.market
      vault := Vault.ofMarket record.market.id record.vaultBalance
      jobs }
  venue.audit
  return venue

end Venue

namespace Store

/-- The snapshot of a store. -/
def snapshot (store : Store) : Snapshot where
  version := Snapshot.currentVersion
  markets := store.venues.values.map Venue.toRecord
  balances := store.balances
  reputations := store.reputations

/-- Enters the jobs of a market into the index, unless one is there already. -/
def enterJobs (market : Key) : List Key → KeyMap Key → Except MarketError (KeyMap Key)
  | [], index => .ok index
  | job :: rest, index =>
    if index.contains job then .error (.violation (.jobInTwoMarkets job))
    else enterJobs market rest (index.insert job market)

/-- Adds the markets of a snapshot to a store, one after the other. -/
def addMarkets (store : Store) : List MarketRecord → Except MarketError Store
  | [] => .ok store
  | record :: rest => do
    let id := record.market.id
    let venue ← Venue.ofRecord record
    let jobMarkets ← enterJobs id venue.jobs.keys store.jobMarkets
    if store.venues.contains id then
      throw (.violation (.marketRecordedTwice id))
    let next : Store := { store with venues := store.venues.insert id venue, jobMarkets }
    next.addMarkets rest

/-- The store that a snapshot describes. No events wait in it. -/
def restore (snapshot : Snapshot) (config : Config) : Except MarketError Store := do
  if snapshot.version ≠ Snapshot.currentVersion then
    throw (.invalidInput (.unsupportedVersion snapshot.version))
  config.validate
  let store ← (empty config).addMarkets snapshot.markets
  return { store with balances := snapshot.balances, reputations := snapshot.reputations }

end Store

end ComputeMarket
